import Polylex.Text.Basic

/-!
# Patterns

A `Polylex.Pattern` is a regular expression that has been compiled. How its matches are found is
a matter of the engine that has compiled it, which is not part of this library: a pattern is
whatever answers where the leftmost match of a text ends, if it begins where the text does.
`Polylex.Pattern.ofRegex` gives the patterns of one engine.

The text that a pattern is given is all it sees. A rule reads what the pattern matches, but no
empty match (`Polylex.Pattern.matchLength?`); and a pattern is refused beforehand if it matches
the empty text (`Polylex.Pattern.matchesEmpty`).
-/

namespace Polylex

/-- A compiled pattern. -/
structure Pattern where
  /-- The number of characters of the leftmost match of a text, if it begins where the text
  does. -/
  matchAt? : Text → Option Nat
  /-- A match does not go beyond the text. -/
  length_le : ∀ {t : Text} {n : Nat}, matchAt? t = some n → n ≤ t.length

namespace Pattern

/-- The number of characters a pattern reads at the start of a text. If its match is empty the
pattern does not match. -/
def matchLength? (p : Pattern) (t : Text) : Option Nat := (p.matchAt? t).filter (0 < ·)

/-- Whether a pattern matches the empty text. -/
def matchesEmpty (p : Pattern) : Bool := (p.matchAt? []).isSome

end Pattern

end Polylex
