import Polylex.Pattern.Escape

/-!
# Bracketed character classes

Reads the classes `[…]` of written patterns: ranges, escapes, named ASCII classes, nested
classes, and the operations `&&`, `--` and `~~`, which all bind alike and group to the
left. The reader keeps a stack of the open brackets; `Polylex.Bracket.read?` starts it.
-/

namespace Polylex.Bracket

/-- An operation between classes. -/
inductive Operation where
  | inter
  | diff
  | symmDiff
deriving Repr, DecidableEq

/-- Two classes joined by an operation. -/
def Operation.apply (s t : CharSet) : Operation → CharSet
  | inter => .inter s t
  | diff => .diff s t
  | symmDiff => .symmDiff s t

/-- An open bracket: whether it is negated, the operation that waits for its right side,
and the union of the items read since. -/
structure Frame where
  negated : Bool
  pending : Option (CharSet × Operation)
  items : CharSet
deriving Repr

namespace Frame

/-- One more item. -/
def add (f : Frame) (s : CharSet) : Frame := { f with items := .union f.items s }

/-- What the bracket holds so far, without its negation. -/
def content (f : Frame) : CharSet :=
  match f.pending with
  | none => f.items
  | some (left, op) => op.apply left f.items

/-- The bracket after an operation sign. -/
def operate (f : Frame) (op : Operation) : Frame := ⟨f.negated, some (f.content, op), .empty⟩

/-- The class of the whole bracket. -/
def value (f : Frame) : CharSet := f.content.negatedIf f.negated

end Frame

/-- The start of a bracket, from the text after the bracket: a caret negates, hyphens stand
for themselves, and so does a closing bracket that comes first. Also the number of
characters read. -/
def start (ignoreCase : Bool) (t : Text) : Frame × Nat :=
  let negated := t.head? == some '^'
  let t := if negated then t.drop 1 else t
  let read := if negated then 1 else 0
  let hyphens := (t.takeWhile (· == '-')).length
  let frame : Frame := ⟨negated, none, .empty⟩
  if hyphens > 0 then (frame.add (.single '-'), read + hyphens)
  else if t.head? == some ']' then
    (frame.add (CharSet.withCase ignoreCase (.single ']')), read + 1)
  else (frame, read)

/-- A named ASCII class such as `[:alpha:]` or `[:^alpha:]`, from the text after its first
bracket. -/
def namedClass? (ignoreCase : Bool) : Text → Option (CharSet × Nat)
  | ':' :: t =>
    let negated := t.head? == some '^'
    let t := if negated then t.drop 1 else t
    let name := t.takeWhile (· != ':')
    match t.drop name.length with
    | ':' :: ']' :: _ =>
      (CharSet.ascii? name).map fun s =>
        ((s.withCase ignoreCase).negatedIf negated, name.length + (if negated then 4 else 3))
    | _ => none
  | _ => none

/-- A character or an escape, and its length. -/
def item? : Text → Option (Escape × Nat)
  | [] => none
  | '\\' :: t => (Escape.read? t).map fun (e, n) => (e, n + 1)
  | c :: _ => some (.char c, 1)

/-- The class of an escape inside brackets; an anchor has none. -/
def classOf? (ignoreCase : Bool) : Escape → Option CharSet
  | .char c => some (CharSet.withCase ignoreCase (.single c))
  | .shorthand s => some s
  | .property p negated => some ((CharSet.withCase ignoreCase (.property p)).negatedIf negated)
  | .anchor _ => none

/-- A range, or a single item, and its length. A hyphen makes a range unless a closing
bracket or another hyphen follows it. -/
def range? (ignoreCase : Bool) (t : Text) : Option (CharSet × Nat) := do
  let (first, n) ← item? t
  match t.drop n with
  | [] => none
  | '-' :: rest =>
    if rest.head? == some ']' || rest.head? == some '-' then
      return (← classOf? ignoreCase first, n)
    let (last, m) ← item? rest
    match first, last with
    | .char low, .char high =>
      if low ≤ high then return (CharSet.withCase ignoreCase (.range low high), n + 1 + m)
      else none
    | _, _ => none
  | _ :: _ => return (← classOf? ignoreCase first, n)

/-- Reads on in the innermost bracket `top` of the open brackets, after passing over `skip`
characters that are already accounted for. Gives the class of the outermost bracket and
the number of characters read. -/
def readFrom (ignoreCase : Bool) : (skip : Nat) → (top : Frame) → (outer : List Frame) → Text →
    Option (CharSet × Nat)
  | _, _, _, [] => none
  | skip + 1, top, outer, _ :: t =>
    (readFrom ignoreCase skip top outer t).map fun (s, n) => (s, n + 1)
  | 0, top, outer, c :: t =>
    let onward : Option (CharSet × Nat) :=
      if c = '[' then
        match namedClass? ignoreCase t with
        | some (s, n) => readFrom ignoreCase n (top.add s) outer t
        | none =>
          let (inner, n) := start ignoreCase t
          readFrom ignoreCase n inner (top :: outer) t
      else if c = ']' then
        match outer with
        | [] => some (top.value, 0)
        | parent :: rest => readFrom ignoreCase 0 (parent.add top.value) rest t
      else if c = '&' && t.head? == some '&' then
        readFrom ignoreCase 1 (top.operate .inter) outer t
      else if c = '-' && t.head? == some '-' then
        readFrom ignoreCase 1 (top.operate .diff) outer t
      else if c = '~' && t.head? == some '~' then
        readFrom ignoreCase 1 (top.operate .symmDiff) outer t
      else
        match range? ignoreCase (c :: t) with
        | none => none
        | some (s, n) => readFrom ignoreCase (n - 1) (top.add s) outer t
    onward.map fun (s, n) => (s, n + 1)

/-- The class at the start of a text that follows an opening bracket, and the number of
characters up to and including the bracket that closes it. -/
def read? (ignoreCase : Bool) (t : Text) : Option (CharSet × Nat) :=
  let (frame, n) := start ignoreCase t
  readFrom ignoreCase n frame [] t

end Polylex.Bracket
