import Polylex.Text.Basic

/-!
# Lines and columns

A `Polylex.LineIndex` holds the offsets at which the lines of a text begin. It turns an
offset into a line and a column (`Polylex.LineIndex.position`) and back
(`Polylex.LineIndex.offset?`). Lines and columns count from zero, columns in bytes.

Offsets have 32 bits. All offsets in a text do, but a column that is asked for may be any
number, and the sum with the beginning of its line may not fit. What happens then is a
choice of the platform, `Polylex.Overflow`.
-/

namespace Polylex

/-- What a platform does about a sum of offsets that does not fit into 32 bits. -/
inductive Overflow where
  /-- It stops. -/
  | stops
  /-- It goes on with the sum modulo `Polylex.Span.offsetBound`. -/
  | wraps
deriving Repr, DecidableEq

/-- A platform has stopped at a sum of offsets that does not fit into 32 bits. -/
inductive Stopped where
  | overflow
deriving Repr, DecidableEq

/-- The sum of two offsets. -/
def Overflow.add (platform : Overflow) (a b : Nat) : Except Stopped Nat :=
  if a + b < Span.offsetBound then .ok (a + b)
  else
    match platform with
    | stops => .error .overflow
    | wraps => .ok ((a + b) % Span.offsetBound)

/-- A place in a text by line and column, both counted from zero. -/
structure Position where
  line : Nat
  column : Nat
deriving Repr, DecidableEq

/-- The offsets at which the lines of a text begin, and the length of the text in bytes. -/
structure LineIndex where
  starts : List Nat
  width : Nat
deriving Repr, DecidableEq

namespace LineIndex

/-- The offsets just after the line feeds of a text that begins at `offset`. -/
def startsAfterFeeds (offset : Nat) : Text → List Nat
  | [] => []
  | c :: t =>
    let next := offset + c.utf8Size
    if c = '\n' then next :: startsAfterFeeds next t else startsAfterFeeds next t

/-- The index of a text: the first line begins at zero, every other just after a line
feed. -/
def ofText (t : Text) : LineIndex := ⟨0 :: startsAfterFeeds 0 t, t.width⟩

/-- The number of lines. -/
def lineCount (index : LineIndex) : Nat := index.starts.length

/-- The line and column of an offset. An offset past the end stands for the end. -/
def position (index : LineIndex) (offset : Nat) : Position :=
  let place := min offset index.width
  let line := (index.starts.takeWhile (· ≤ place)).length - 1
  ⟨line, place - index.starts.getD line 0⟩

/-- The offset of a line and column. There is none for a line that does not exist or past
the end of the text; a column may run on into the lines below. -/
def offset? (index : LineIndex) (platform : Overflow) (p : Position) :
    Except Stopped (Option Nat) :=
  match index.starts[p.line]? with
  | none => .ok none
  | some start => do
    let offset ← platform.add start p.column
    return if offset ≤ index.width then some offset else none

end LineIndex

end Polylex
