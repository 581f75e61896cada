import Polylex.Text.Basic
import Polylex.Unicode.Property

/-!
# Character classes of rules

The classes of characters a rule can match runs of (`Polylex.CharClass`), and the two
notions of identifier the tokenizer knows: the identifiers of grammars, which may hold
dollar signs, and labels (`Polylex.labelLength`), which may not.
-/

namespace Polylex

/-- A character that begins an identifier of a grammar. -/
def beginsIdentifier (c : Char) : Bool := c == '_' || c == '$' || Unicode.isIdentifierStart c

/-- A character that continues an identifier of a grammar. -/
def continuesIdentifier (c : Char) : Bool := c == '$' || Unicode.isIdentifierContinue c

/-- A character that begins a label. -/
def beginsLabel (c : Char) : Bool := c == '_' || Unicode.isIdentifierStart c

/-- A character that continues a label. -/
def continuesLabel (c : Char) : Bool := c == '_' || Unicode.isIdentifierContinue c

/-- The number of characters of the label at the start of a text, zero when there is
none. -/
def labelLength : Text → Nat
  | [] => 0
  | c :: t => if beginsLabel c then 1 + (t.takeWhile continuesLabel).length else 0

/-- A class of characters. -/
inductive CharClass where
  | whitespace
  /-- Space and tab. -/
  | inlineSpace
  | digit
  | hexDigit
  | identifier
  | oneOf (set : Text)
  | noneOf (set : Text)
deriving Repr, DecidableEq

namespace CharClass

/-- Whether a character continues a run of the class. -/
def continues : CharClass → Char → Bool
  | whitespace, c => Unicode.isBlank c
  | inlineSpace, c => c == ' ' || c == '\t'
  | digit, c => c.isDigit
  | hexDigit, c => c.isDigit || ('a' ≤ c && c ≤ 'f') || ('A' ≤ c && c ≤ 'F')
  | identifier, c => continuesIdentifier c
  | oneOf set, c => set.contains c
  | noneOf set, c => !set.contains c

/-- Whether a character begins a run of the class. Only identifiers begin otherwise than
they go on. -/
def starts : CharClass → Char → Bool
  | identifier, c => beginsIdentifier c
  | cls, c => cls.continues c

/-- The number of characters of the run at the start of a text, if there is one; of a
single character where runs do not count. -/
def runLength? (cls : CharClass) (repeats : Bool) : Text → Option Nat
  | [] => none
  | c :: t =>
    if cls.starts c then
      some (if repeats then 1 + (t.takeWhile cls.continues).length else 1)
    else none

end CharClass

end Polylex
