import Polylex.Pattern.Regex
import Polylex.Text.Basic

/-!
# Escapes in patterns

What a backslash introduces in a written pattern: a character, a class of characters, a
property or an anchor. `Polylex.Escape.read?` reads the text after the backslash.
-/

namespace Polylex

/-- The meaning of an escape. -/
inductive Escape where
  | char (c : Char)
  /-- One of the classes with a letter of their own; case does not matter to them. -/
  | shorthand (s : CharSet)
  | property (p : CharProperty) (negated : Bool)
  | anchor (a : Anchor)
deriving Repr, DecidableEq

namespace Escape

/-- Whether a backslash before the character stands for the character itself: ASCII except
for letters, digits and the angle brackets. -/
def isLiteral (c : Char) : Bool :=
  c.toNat < 128 && !c.isAlphanum && c != '<' && c != '>'

/-- The value of a hexadecimal digit. -/
def hexValue? (c : Char) : Option Nat :=
  if '0' ≤ c && c ≤ '9' then some (c.toNat - '0'.toNat)
  else if 'a' ≤ c && c ≤ 'f' then some (c.toNat - 'a'.toNat + 10)
  else if 'A' ≤ c && c ≤ 'F' then some (c.toNat - 'A'.toNat + 10)
  else none

/-- The character whose code point the hexadecimal digits write, if there is one. -/
def charOfHex? (digits : Text) : Option Char :=
  match digits.mapM hexValue? with
  | none => none
  | some [] => none
  | some values =>
    let n := values.foldl (fun n d => 16 * n + d) 0
    if n.isValidChar then some (Char.ofNat n) else none

/-- The text up to a closing brace, and the number of characters read with the brace. -/
def readBraced? (t : Text) : Option (Text × Nat) :=
  let inner := t.takeWhile (· != '\x7d')
  if inner.length < t.length then some (inner, inner.length + 1) else none

/-- A code point in braces or in exactly `digits` hexadecimal digits. -/
def readHex? (digits : Nat) : Text → Option (Escape × Nat)
  | '\x7b' :: t => do
    let (inner, n) ← readBraced? t
    let c ← charOfHex? inner
    return (.char c, n + 1)
  | t =>
    if digits ≤ t.length then (charOfHex? (t.take digits)).map fun c => (.char c, digits)
    else none

/-- A property by its one-letter name or by its name in braces. -/
def readProperty? (negated : Bool) : Text → Option (Escape × Nat)
  | [] => none
  | '\x7b' :: t => do
    let (inner, n) ← readBraced? t
    let p ← CharProperty.ofName? inner
    return (.property p negated, n + 1)
  | c :: _ => (CharProperty.ofName? [c]).map fun p => (.property p negated, 1)

/-- The escape at the start of a text that follows a backslash, and its length. -/
def read? : Text → Option (Escape × Nat)
  | [] => none
  | 'x' :: t => (readHex? 2 t).map fun (e, n) => (e, n + 1)
  | 'u' :: t => (readHex? 4 t).map fun (e, n) => (e, n + 1)
  | 'U' :: t => (readHex? 8 t).map fun (e, n) => (e, n + 1)
  | 'p' :: t => (readProperty? false t).map fun (e, n) => (e, n + 1)
  | 'P' :: t => (readProperty? true t).map fun (e, n) => (e, n + 1)
  | c :: _ =>
    let meaning : Option Escape := match c with
      | 'd' => some (.shorthand (.property .decimalDigit))
      | 'D' => some (.shorthand (.compl (.property .decimalDigit)))
      | 's' => some (.shorthand (.property .blank))
      | 'S' => some (.shorthand (.compl (.property .blank)))
      | 'w' => some (.shorthand (.property .word))
      | 'W' => some (.shorthand (.compl (.property .word)))
      | 'a' => some (.char '\x07')
      | 'f' => some (.char '\x0c')
      | 't' => some (.char '\t')
      | 'n' => some (.char '\n')
      | 'r' => some (.char '\r')
      | 'v' => some (.char '\x0b')
      | 'A' => some (.anchor .textStart)
      | 'z' => some (.anchor .textEnd)
      | 'b' => some (.anchor .wordBoundary)
      | 'B' => some (.anchor .noWordBoundary)
      | c => if isLiteral c then some (.char c) else none
    meaning.map fun e => (e, 1)

end Escape

end Polylex
