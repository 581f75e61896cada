import Polylex.Pattern.CharSet

/-!
# Regular expressions with ordered choice

The form in which a written pattern is read: characters, anchors, sequences, choices and
repetitions. Where several ways to match exist the order of the alternatives decides: the
first alternative that leads to a match is preferred, a greedy repetition prefers to go on,
a reluctant one to stop.

* `Polylex.Regex.sequence` puts expressions one after the other, and a sequence in a
  sequence becomes part of it;
* `Polylex.Regex.times` repeats an expression;
* `Polylex.Regex.choice` puts alternatives in order, and moves the parts that all of them
  begin with in front of the choice. This decides what is preferred: `a*a|a*b` matches all
  of `aab`, as `a*(?:a|b)` does, although its first alternative alone matches `aa`.
-/

namespace Polylex

/-- A condition on a place between two characters. -/
inductive Anchor where
  | textStart
  | textEnd
  | lineStart
  | lineEnd
  | wordBoundary
  | noWordBoundary
deriving Repr, DecidableEq

namespace Anchor

/-- Whether a place is next to exactly one word character. -/
def isWordBoundary (before after : Option Char) : Bool :=
  before.any Unicode.isWord != after.any Unicode.isWord

/-- Whether the condition holds between the characters before and after a place; there is
none at an end of the text. -/
def holds (before after : Option Char) : Anchor → Bool
  | textStart => before.isNone
  | textEnd => after.isNone
  | lineStart => before.all (· == '\n')
  | lineEnd => after.all (· == '\n')
  | wordBoundary => isWordBoundary before after
  | noWordBoundary => !isWordBoundary before after

end Anchor

/-- A regular expression with ordered choice. -/
inductive Regex where
  | empty
  | one (s : CharSet)
  | anchor (a : Anchor)
  | seq (p q : Regex)
  | either (p q : Regex)
  /-- At least `least` times, and at most `most` times if there is a bound. -/
  | repeated (p : Regex) (least : Nat) (most : Option Nat) (greedy : Bool)
  /-- A numbered group. -/
  | group (p : Regex)
deriving Repr, DecidableEq

namespace Regex

/-! ### Sequences -/

/-- The parts of an expression that are to match one after the other. -/
def parts : Regex → List Regex
  | empty => []
  | seq p q => p.parts ++ q.parts
  | p => [p]

/-- The sequence with some parts. -/
def ofParts : List Regex → Regex
  | [] => empty
  | [p] => p
  | p :: q :: rest => seq p (ofParts (q :: rest))

/-- One expression after the other. -/
def sequence (ps : List Regex) : Regex := ofParts (ps.flatMap parts)

/-! ### Repetitions -/

/-- Whether every match of an expression reads a character. -/
def alwaysReads : Regex → Bool
  | one _ => true
  | seq p q => p.alwaysReads || q.alwaysReads
  | either p q => p.alwaysReads && q.alwaysReads
  | repeated p least _ _ => least != 0 && p.alwaysReads
  | group p => p.alwaysReads
  | _ => false

/-- Whether no match of an expression reads a character. -/
def neverReads : Regex → Bool
  | one _ => false
  | seq p q | either p q => p.neverReads && q.neverReads
  | repeated p _ _ _ | group p => p.neverReads
  | _ => true

/-- A repetition with its bounds as they are. Once is the expression itself, and never is
nothing. -/
def bounded (p : Regex) (least : Nat) (most : Option Nat) (greedy : Bool) : Regex :=
  if most = some 0 then empty
  else if least = 1 ∧ most = some 1 then p
  else repeated p least most greedy

/-- A repetition. What reads nothing is not repeated more than once. -/
def times (p : Regex) (least : Nat) (most : Option Nat) (greedy : Bool) : Regex :=
  if p.neverReads then p.bounded (min least 1) (some (min (most.getD 1) 1)) greedy
  else p.bounded least most greedy

/-! ### Choices -/

/-- The alternatives of an expression, the preferred one first. -/
def alternatives : Regex → List Regex
  | either p q => p.alternatives ++ q.alternatives
  | p => [p]

/-- The choice between some alternatives. -/
def ofAlternatives : List Regex → Regex
  | [] => empty
  | [p] => p
  | p :: q :: rest => either p (ofAlternatives (q :: rest))

/-- Whether there is a numbered group in an expression. -/
def hasGroup : Regex → Bool
  | group _ => true
  | seq p q | either p q => p.hasGroup || q.hasGroup
  | repeated p _ _ _ => p.hasGroup
  | _ => false

/-- What two lists of parts both begin with. Groups have different numbers, so parts with a
group differ. -/
def sharedParts : List Regex → List Regex → List Regex
  | p :: ps, q :: qs => if p = q ∧ ¬p.hasGroup then p :: sharedParts ps qs else []
  | _, _ => []

/-- What all alternatives begin with, each given by its parts. Nothing if there is only one
alternative, or one that is not a sequence. -/
def beginning : List (List Regex) → List Regex
  | first :: second :: rest =>
    if (first :: second :: rest).all (2 ≤ ·.length) then
      (second :: rest).foldl sharedParts first
    else []
  | _ => []

/-- The first of several expressions that matches. If they are sequences and all begin with
the same parts, these parts are matched first, in the way preferred by them, and what is
left of the expressions is tried after each way to match them. -/
def choice (ps : List Regex) : Regex :=
  let branches := (ps.flatMap alternatives).map parts
  let shared := beginning branches
  let rests := branches.map fun branch => ofParts (branch.drop shared.length)
  sequence (shared ++ [ofAlternatives rests])

end Regex

end Polylex
