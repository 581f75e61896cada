/-!
# Texts, byte widths and spans

A text is the list of its characters. Offsets into a text count the bytes of its UTF-8
form, so a position in a text is the width of what stands before it, and a span is a pair
of such offsets.

* `Polylex.Text.width` – the number of bytes of a text;
* `Polylex.Text.slice` – the characters between two offsets;
* `Polylex.Text.lines` – a text cut at its line feeds;
* `Polylex.Span` – a range of offsets.
-/

namespace Polylex

/-- A range of byte offsets, from `start` up to but not including `stop`. -/
structure Span where
  start : Nat
  stop : Nat
deriving Repr, DecidableEq, Inhabited

namespace Span

/-- The least number that is too great for an offset, which has 32 bits. -/
def offsetBound : Nat := 4294967296

/-- The empty span at an offset. -/
def point (offset : Nat) : Span := ⟨offset, offset⟩

/-- Whether a span holds no byte. -/
def isEmpty (s : Span) : Bool := s.start == s.stop

/-- The least span that holds two spans. -/
def cover (s t : Span) : Span := ⟨min s.start t.start, max s.stop t.stop⟩

end Span

/-- A text is the sequence of its characters. -/
abbrev Text := List Char

namespace Text

/-- The number of bytes of a text in UTF-8. -/
def width : Text → Nat
  | [] => 0
  | c :: t => c.utf8Size + width t

@[simp] theorem width_nil : width [] = 0 := rfl

@[simp] theorem width_cons (c : Char) (t : Text) : width (c :: t) = c.utf8Size + width t := rfl

@[simp] theorem width_append (s t : Text) : width (s ++ t) = width s + width t := by
  induction s with
  | nil => simp
  | cons c s ih => simp [ih, Nat.add_assoc]

/-- What is left of a text after its first `n` bytes. -/
def dropBytes : Nat → Text → Text
  | _, [] => []
  | 0, t => t
  | n + 1, c :: t => dropBytes (n + 1 - c.utf8Size) t

/-- The characters that lie within the first `n` bytes of a text. -/
def takeBytes : Nat → Text → Text
  | _, [] => []
  | n, c :: t => if c.utf8Size ≤ n then c :: takeBytes (n - c.utf8Size) t else []

/-- The characters of a text between the two offsets of a span. -/
def slice (t : Text) (s : Span) : Text := takeBytes (s.stop - s.start) (dropBytes s.start t)

/-- The lines of a text, without their line feeds. A text that ends in a line feed has an
empty last line, and so has the empty text. -/
def lines : Text → List Text
  | [] => [[]]
  | c :: t =>
    if c = '\n' then [] :: lines t
    else
      match lines t with
      | [] => [[c]]
      | line :: rest => (c :: line) :: rest

end Text

end Polylex
