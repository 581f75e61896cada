import Polylex.Unicode.RangeTable
import Polylex.Unicode.Letter
import Polylex.Unicode.Mark
import Polylex.Unicode.Number

/-!
# Character properties

The properties of characters that grammars speak of: letters, marks, numbers, white
space, the two identifier properties and the characters of words.

* `Polylex.Unicode.isIdentifierStart` and `Polylex.Unicode.isIdentifierContinue` are
  `XID_Start` and `XID_Continue`, derived from the general categories as the standard
  derives them: the characters that are added or taken away by hand are the short tables
  next to the definitions.
  Identifiers may hold the letters of a more recent version of the standard than the one
  the categories are taken from, `Polylex.Unicode.recentLetters`.
* `Polylex.Unicode.isAlphanumeric` is “alphabetic or a number”.
* `Polylex.Unicode.isWord` is the class of characters between word boundaries.
-/

namespace Polylex.Unicode

/-! ### General categories -/

/-- A letter, category `L`. -/
def isLetter (c : Char) : Bool :=
  planeZeroLetters.covers c.toNat || higherLetters.covers c.toNat

/-- A combining mark, category `M`. -/
def isMark (c : Char) : Bool := combiningMarks.covers c.toNat

/-- An enclosing mark, category `Me`. -/
def isEnclosingMark (c : Char) : Bool := enclosingMarks.covers c.toNat

/-- A decimal digit, category `Nd`. -/
def isDecimalDigit (c : Char) : Bool := decimalDigits.covers c.toNat

/-- A letter number, category `Nl`. -/
def isLetterNumber (c : Char) : Bool := letterNumbers.covers c.toNat

/-- A number that is neither a digit nor a letter number, category `No`. -/
def isOtherNumber (c : Char) : Bool := otherNumbers.covers c.toNat

/-- A number of any kind, category `N`. -/
def isNumber (c : Char) : Bool := isDecimalDigit c || isLetterNumber c || isOtherNumber c

/-- The connector punctuation, category `Pc`. -/
def connectors : RangeTable :=
  [(0x5F, 0x5F), (0x203F, 0x2040), (0x2054, 0x2054), (0xFE33, 0xFE34), (0xFE4D, 0xFE4F),
   (0xFF3F, 0xFF3F)]

/-- A connector such as the underscore, category `Pc`. -/
def isConnector (c : Char) : Bool := connectors.covers c.toNat

/-! ### White space, alphabetic and word characters -/

/-- The characters with property `White_Space`. -/
def blanks : RangeTable :=
  [(0x9, 0xD), (0x20, 0x20), (0x85, 0x85), (0xA0, 0xA0), (0x1680, 0x1680), (0x2000, 0x200A),
   (0x2028, 0x2029), (0x202F, 0x202F), (0x205F, 0x205F), (0x3000, 0x3000)]

/-- White space, property `White_Space`. -/
def isBlank (c : Char) : Bool := blanks.covers c.toNat

/-- Alphabetic, property `Alphabetic`: letters, letter numbers and the marks that carry a
sound. -/
def isAlphabetic (c : Char) : Bool :=
  isLetter c || isLetterNumber c || alphabeticMarks.covers c.toNat

/-- Alphabetic or a number. -/
def isAlphanumeric (c : Char) : Bool := isAlphabetic c || isNumber c

/-- The two joiners, property `Join_Control`. -/
def isJoiner (c : Char) : Bool := c.toNat == 0x200C || c.toNat == 0x200D

/-- A character of a word: alphabetic, a mark, a decimal digit, a connector or a joiner. -/
def isWord (c : Char) : Bool :=
  isAlphabetic c || isMark c || isDecimalDigit c || isConnector c || isJoiner c

/-! ### Identifiers -/

/-- Letters of version 18 of the standard, which the category tables do not hold yet. They
follow version 17. -/
def recentLetters : RangeTable :=
  [(0x558, 0x558), (0x58B, 0x58C), (0x208F, 0x208F), (0x209D, 0x209F), (0x3D000, 0x3FC3F)]

/-- A letter of an identifier: of the category tables, or a recent one. -/
def isIdentifierLetter (c : Char) : Bool := isLetter c || recentLetters.covers c.toNat

/-- The characters that begin an identifier by decree, not by their category. -/
def addedStarts : RangeTable :=
  [(0x1885, 0x1886), (0x2118, 0x2118), (0x212E, 0x212E)]

/-- The letters that no identifier holds: their compatibility forms begin with a space or
they are punctuation of patterns. -/
def droppedLetters : RangeTable :=
  [(0x37A, 0x37A), (0x2E2F, 0x2E2F), (0xFC5E, 0xFC63), (0xFDFA, 0xFDFB), (0xFE70, 0xFE70),
   (0xFE72, 0xFE72), (0xFE74, 0xFE74), (0xFE76, 0xFE76), (0xFE78, 0xFE78), (0xFE7A, 0xFE7A),
   (0xFE7C, 0xFE7C), (0xFE7E, 0xFE7E)]

/-- The letters that continue an identifier but do not begin one: their compatibility
forms begin with a mark. -/
def inwardLetters : RangeTable :=
  [(0xE33, 0xE33), (0xEB3, 0xEB3), (0xFF9E, 0xFF9F)]

/-- The characters that continue an identifier by decree, beside those that begin one. -/
def addedContinues : RangeTable :=
  [(0xB7, 0xB7), (0x387, 0x387), (0x1369, 0x1371), (0x19DA, 0x19DA), (0x200C, 0x200D),
   (0x30FB, 0x30FB), (0xFF65, 0xFF65)]

/-- A character that begins an identifier, property `XID_Start`. -/
def isIdentifierStart (c : Char) : Bool :=
  (isIdentifierLetter c || isLetterNumber c || addedStarts.covers c.toNat) &&
    !(droppedLetters.covers c.toNat || inwardLetters.covers c.toNat)

/-- A character that continues an identifier, property `XID_Continue`. -/
def isIdentifierContinue (c : Char) : Bool :=
  (isIdentifierLetter c || isLetterNumber c || isMark c && !isEnclosingMark c ||
      isDecimalDigit c || isConnector c || addedStarts.covers c.toNat ||
      addedContinues.covers c.toNat) &&
    !droppedLetters.covers c.toNat

end Polylex.Unicode
