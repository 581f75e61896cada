import Polylex.Grammar.Basic

/-!
# Regions

The regions of grammars that are open at a place of the text form a stack. Its bottom is
the root region, which is kept apart and never closed, so that a stack is never empty.

* `Polylex.RegionStack.push` refuses a grammar that is not reentrant and open already, and
  a region beyond the depth limit;
* `Polylex.RegionStack.pop` refuses the root;
* `Polylex.RegionStack.closeAll` closes all regions but the root, innermost first.
-/

namespace Polylex

/-- A stretch of the text that one grammar governs. It starts after the token that opened
it; the end is known once it is closed. -/
structure Region where
  grammar : Grammar
  start : Nat
  stop : Option Nat
  opener : Span

namespace Region

/-- A region that has just been opened. -/
def opened (grammar : Grammar) (start : Nat) (opener : Span) : Region :=
  ⟨grammar, start, none, opener⟩

/-- The name of the grammar. -/
def id (r : Region) : String := r.grammar.id

/-- The region, closed at an offset. -/
def closedAt (r : Region) (offset : Nat) : Region := { r with stop := some offset }

/-- The span of a closed region. -/
def span? (r : Region) : Option Span := r.stop.map fun stop => ⟨r.start, stop⟩

end Region

/-- Why a stack of regions refuses an operation. -/
inductive RegionError where
  | unbalanced (depth : Nat)
  | recursive (id : String)
  | depthLimit (limit : Nat)
deriving Repr, DecidableEq

namespace RegionError

/-- The error in words. -/
def message : RegionError → String
  | unbalanced depth => s!"cannot pop the root region (depth {depth})"
  | recursive id => s!"grammar `{id}` is already on the region stack"
  | depthLimit limit => s!"region depth limit of {limit} reached"

end RegionError

/-- The open regions: the root, and the others with the innermost first. -/
structure RegionStack where
  root : Region
  nested : List Region
  limit : Nat

namespace RegionStack

/-- The stack with only a root region. The root counts towards the limit, which is at
least one. -/
def start (root : Grammar) (offset limit : Nat) : RegionStack :=
  ⟨Region.opened root offset (Span.point offset), [], max 1 limit⟩

/-- The innermost region. -/
def top (s : RegionStack) : Region := s.nested.headD s.root

/-- The grammar in force. -/
def current (s : RegionStack) : Grammar := s.top.grammar

/-- The number of open regions, the root included. -/
def depth (s : RegionStack) : Nat := s.nested.length + 1

/-- Whether only the root is open. -/
def isRoot (s : RegionStack) : Bool := s.nested.isEmpty

/-- Whether a region of the grammar of a name is open. -/
def contains (s : RegionStack) (id : String) : Bool :=
  s.root.id == id || s.nested.any (·.id == id)

/-- Opens a region inside the innermost one. -/
def push (s : RegionStack) (grammar : Grammar) (start : Nat) (opener : Span) :
    Except RegionError RegionStack :=
  if !grammar.reentrant && s.contains grammar.id then .error (.recursive grammar.id)
  else if s.limit ≤ s.depth then .error (.depthLimit s.limit)
  else .ok { s with nested := Region.opened grammar start opener :: s.nested }

/-- Only closing a region can find that there is none to close. -/
theorem push_ne_unbalanced (s : RegionStack) (grammar : Grammar) (start : Nat) (opener : Span)
    (depth : Nat) : s.push grammar start opener ≠ .error (.unbalanced depth) := by
  rw [push]
  split
  · exact nofun
  · split <;> exact nofun

/-- Closes the innermost region. -/
def pop (s : RegionStack) (offset : Nat) : Except RegionError (Region × RegionStack) :=
  match s.nested with
  | [] => .error (.unbalanced s.depth)
  | r :: rest => .ok (r.closedAt offset, { s with nested := rest })

/-- Closes all regions but the root, innermost first. -/
def closeAll (s : RegionStack) (offset : Nat) : List Region × RegionStack :=
  (s.nested.map (·.closedAt offset), { s with nested := [] })

end RegionStack

end Polylex
