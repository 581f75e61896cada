/-!
# Data values

The values that settings and results are exchanged as: null, booleans, numbers, texts,
lists and records. `Polylex.Datum.natBelow?` and `Polylex.Datum.named?` read the two kinds
of simple value that occur in them.
-/

namespace Polylex

/-- A data value. -/
inductive Datum where
  | null
  | bool (b : Bool)
  | integer (n : Int)
  /-- A number written with a fraction: `mantissa / 10 ^ places`. -/
  | decimal (mantissa : Int) (places : Nat)
  | text (s : String)
  | list (items : List Datum)
  | record (fields : List (String × Datum))
deriving Repr, Inhabited

namespace Datum

/-- A whole number from zero up to but not including a bound. -/
def natBelow? (bound : Nat) : Datum → Option Nat
  | integer (.ofNat n) => if n < bound then some n else none
  | _ => none

/-- A boolean. -/
def bool? : Datum → Option Bool
  | bool b => some b
  | _ => none

/-- A text. -/
def text? : Datum → Option String
  | text s => some s
  | _ => none

/-- The value of a name in a table. A name may be written alone, or as the only field of a
record, with nothing in it. -/
def named? {α : Type} (table : List (String × α)) : Datum → Option α
  | text s => table.lookup s
  | record [(s, null)] => table.lookup s
  | _ => none

/-- The name of a value in a table, as a text. -/
def ofNamed {α : Type} [BEq α] (table : List (String × α)) (a : α) : Datum :=
  match table.find? (·.2 == a) with
  | some (s, _) => text s
  | none => null

end Datum

end Polylex
