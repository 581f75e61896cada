import Polylex.Grammar.CharClass
import Polylex.Pattern.Basic
import Polylex.Token.Kind

/-!
# Grammars

A `Polylex.Grammar` is an ordered table of rules. A rule says what it matches
(`Polylex.Matcher`), what kind of token that is, and whether the token enters, leaves or
switches the region of a grammar (`Polylex.RegionAction`).

String-like matchers, `Polylex.Delimited` and `Polylex.Heredoc`, may hold embedded
expressions, each form of which is a `Polylex.Interpolation`.
-/

namespace Polylex

/-- A form of embedded expression. Without a grammar of its own the expression is in the
grammar of the literal. -/
inductive Interpolation where
  /-- An expression between two delimiters. -/
  | braced (opener closer : Text) (grammar : Option String)
  /-- A label after a single character. -/
  | sigil (mark : Char) (grammar : Option String)
deriving Repr, DecidableEq

namespace Interpolation

/-- The grammar that the form names. -/
def grammar : Interpolation → Option String
  | braced _ _ g => g
  | sigil _ g => g

end Interpolation

/-- A literal between two delimiters. -/
structure Delimited where
  opener : Text
  closer : Text
  escape : Option Char := some '\\'
  multiline : Bool := false
  interpolations : List Interpolation := []
deriving Repr, DecidableEq

/-- A heredoc: an introducer, an optional flag that allows the terminator to be indented,
and a label that stands alone on the line that ends the literal. -/
structure Heredoc where
  intro : Text
  flags : Text := []
  escape : Option Char := some '\\'
  interpolations : List Interpolation := []
deriving Repr, DecidableEq

/-- What a rule matches. -/
inductive Matcher where
  | literal (text : Text)
  /-- A literal that no identifier character follows. -/
  | keyword (text : Text)
  /-- A character of a class, or a run of them. -/
  | chars (cls : CharClass) (repeats : Bool)
  | pattern (p : Pattern)
  | delimited (spec : Delimited)
  | heredoc (spec : Heredoc)

namespace Matcher

/-- Whether the matcher is refused because it could match without reading anything. -/
def canMatchEmpty : Matcher → Bool
  | literal text => text.isEmpty
  | keyword text => text.isEmpty
  | chars (.oneOf set) _ => set.isEmpty
  | chars _ _ => false
  | pattern p => p.matchesEmpty
  | delimited spec => spec.opener.isEmpty || spec.closer.isEmpty
  | heredoc spec => spec.intro.isEmpty

/-- The forms of embedded expression. -/
def interpolations : Matcher → List Interpolation
  | delimited spec => spec.interpolations
  | heredoc spec => spec.interpolations
  | _ => []

/-- The characters that may come between the introducer and the label of a heredoc. -/
def heredocFlags : Matcher → Text
  | heredoc spec => spec.flags
  | _ => []

end Matcher

/-- What a token does to the regions. -/
inductive RegionAction where
  | enter (grammar : String)
  | exit
  /-- Leaves the region and enters another. -/
  | switch (grammar : String)
deriving Repr, DecidableEq

namespace RegionAction

/-- The grammar whose region is entered. -/
def target : RegionAction → Option String
  | enter g => some g
  | exit => none
  | switch g => some g

end RegionAction

/-- A rule of a grammar. -/
structure Rule where
  kind : TokenKind
  matcher : Matcher
  action : Option RegionAction := none

namespace Rule

/-- The rule for a keyword. -/
def keyword (word : Text) : Rule := ⟨.keyword, .keyword word, none⟩

end Rule

/-- An ordered table of rules. A region of a grammar that is not reentrant cannot be
entered inside a region of the same grammar. -/
structure Grammar where
  id : String
  rules : List Rule
  reentrant : Bool := false

namespace Grammar

/-- The literals between delimiters that the grammar knows, in the order of its rules. -/
def literals (g : Grammar) : List Delimited :=
  g.rules.filterMap fun rule => match rule.matcher with
    | .delimited spec => some spec
    | _ => none

/-- The grammar with the rules of another one after its own. -/
def including (g other : Grammar) : Grammar := { g with rules := g.rules ++ other.rules }

/-- The grammar with one more rule. -/
def addRule (g : Grammar) (rule : Rule) : Grammar := { g with rules := g.rules ++ [rule] }

end Grammar

end Polylex
