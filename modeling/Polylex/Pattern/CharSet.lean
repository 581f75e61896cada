import Polylex.Unicode.Property
import Polylex.Unicode.CaseFold

/-!
# Sets of characters

The character sets a pattern can describe: ranges, properties, and their combinations.
`Polylex.CharSet.contains` decides membership.
-/

namespace Polylex

/-- The character properties a pattern can name. -/
inductive CharProperty where
  | any
  | letter
  | mark
  | number
  | decimalDigit
  | letterNumber
  | otherNumber
  | connector
  | alphabetic
  | blank
  | word
deriving Repr, DecidableEq

namespace CharProperty

open Unicode

/-- Whether a character has the property. -/
def holds : CharProperty → Char → Bool
  | any, _ => true
  | letter, c => isLetter c
  | mark, c => isMark c
  | number, c => isNumber c
  | decimalDigit, c => isDecimalDigit c
  | letterNumber, c => isLetterNumber c
  | otherNumber, c => isOtherNumber c
  | connector, c => isConnector c
  | alphabetic, c => isAlphabetic c
  | blank, c => isBlank c
  | word, c => isWord c

/-- The names of the properties, in lower case and without separators. -/
def names : List (String × CharProperty) :=
  [("any", any), ("l", letter), ("letter", letter), ("m", mark), ("mark", mark),
   ("n", number), ("number", number), ("nd", decimalDigit), ("decimalnumber", decimalDigit),
   ("nl", letterNumber), ("letternumber", letterNumber), ("no", otherNumber),
   ("othernumber", otherNumber), ("pc", connector), ("connectorpunctuation", connector),
   ("alphabetic", alphabetic), ("alpha", alphabetic), ("whitespace", blank), ("space", blank)]

/-- The property with a name. Case, spaces, hyphens and underscores do not count. -/
def ofName? (name : List Char) : Option CharProperty :=
  let plain := (name.filter fun c => !(c == ' ' || c == '-' || c == '_')).map Char.toLower
  (names.find? fun entry => entry.1.toList == plain).map (·.2)

end CharProperty

/-- A set of characters. -/
inductive CharSet where
  | empty
  | range (low high : Char)
  | property (p : CharProperty)
  /-- The set closed under change of case. -/
  | folded (s : CharSet)
  | compl (s : CharSet)
  | union (s t : CharSet)
  | inter (s t : CharSet)
  | diff (s t : CharSet)
  | symmDiff (s t : CharSet)
deriving Repr, DecidableEq

namespace CharSet

/-- The set of one character. -/
def single (c : Char) : CharSet := range c c

/-- The union of several sets. -/
def unionAll (sets : List CharSet) : CharSet := sets.foldl union empty

/-- Whether a character is in the set. -/
def contains : CharSet → Char → Bool
  | empty, _ => false
  | range low high, c => low.toNat ≤ c.toNat && c.toNat ≤ high.toNat
  | property p, c => p.holds c
  | folded s, c => s.contains c || (Unicode.caseVariants c).any s.contains
  | compl s, c => !s.contains c
  | union s t, c => s.contains c || t.contains c
  | inter s t, c => s.contains c && t.contains c
  | diff s t, c => s.contains c && !t.contains c
  | symmDiff s t, c => s.contains c != t.contains c

/-- The set, closed under change of case when case is ignored. -/
def withCase (ignoreCase : Bool) (s : CharSet) : CharSet := if ignoreCase then folded s else s

/-- The set, or its complement. -/
def negatedIf (negated : Bool) (s : CharSet) : CharSet := if negated then compl s else s

/-- The ASCII sets with a name, as ranges. -/
def asciiRanges : List (String × List (Char × Char)) :=
  [("alnum", [('0', '9'), ('A', 'Z'), ('a', 'z')]),
   ("alpha", [('A', 'Z'), ('a', 'z')]),
   ("ascii", [('\x00', '\x7f')]),
   ("blank", [('\t', '\t'), (' ', ' ')]),
   ("cntrl", [('\x00', '\x1f'), ('\x7f', '\x7f')]),
   ("digit", [('0', '9')]),
   ("graph", [('!', '~')]),
   ("lower", [('a', 'z')]),
   ("print", [(' ', '~')]),
   ("punct", [('!', '/'), (':', '@'), ('[', '\x60'), ('\x7b', '~')]),
   ("space", [('\t', '\r'), (' ', ' ')]),
   ("upper", [('A', 'Z')]),
   ("word", [('0', '9'), ('A', 'Z'), ('_', '_'), ('a', 'z')]),
   ("xdigit", [('0', '9'), ('A', 'F'), ('a', 'f')])]

/-- The ASCII set with a name. -/
def ascii? (name : List Char) : Option CharSet :=
  (asciiRanges.find? fun entry => entry.1.toList == name).map fun entry =>
    unionAll (entry.2.map fun bounds => range bounds.1 bounds.2)

end CharSet

end Polylex
