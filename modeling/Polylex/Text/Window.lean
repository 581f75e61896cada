import Polylex.Text.Basic

/-!
# Windows

A `Polylex.Window` is a place in a text that is cut off at a limit: what reads a text reads it at
such a place, with the whole text in front of it at hand, and moves the place along.

* `Polylex.Window.ofSpan` – the start of a span of a text, with the end of the span as the limit;
* `Polylex.Window.advance` – the place some characters later;
* `Polylex.Window.focus` – the start of a span behind the place, with its end as the limit.
-/

namespace Polylex

/-- A place in a text that is cut off at a limit. -/
structure Window where
  /-- The text in front of the place. -/
  before : Text
  /-- The offset of the place. -/
  cursor : Nat
  /-- The text from the place up to the limit. -/
  rest : Text

namespace Window

/-- The text up to the limit. -/
def text (w : Window) : Text := w.before ++ w.rest

/-- The offset of the limit. -/
def limit (w : Window) : Nat := w.cursor + w.rest.width

/-- The start of a span of a text. -/
def ofSpan (t : Text) (s : Span) : Window := ⟨t.slice ⟨0, s.start⟩, s.start, t.slice s⟩

/-- The place after some characters. -/
def advance (w : Window) (n : Nat) : Window :=
  ⟨w.before ++ w.rest.take n, w.cursor + Text.width (w.rest.take n), w.rest.drop n⟩

/-- The place moves in one text. -/
@[simp] theorem text_advance (w : Window) (n : Nat) : (w.advance n).text = w.text := by
  rw [text, text, advance, List.append_assoc, List.take_append_drop]

@[simp] theorem limit_advance (w : Window) (n : Nat) : (w.advance n).limit = w.limit := by
  have hcut := Text.width_append (w.rest.take n) (w.rest.drop n)
  rw [List.take_append_drop] at hcut
  rw [limit, limit, advance, hcut, Nat.add_assoc]

/-- The start of a span behind the place. -/
def focus (w : Window) (s : Span) : Window :=
  ⟨w.before ++ w.rest.slice ⟨0, s.start - w.cursor⟩, s.start,
    w.rest.slice ⟨s.start - w.cursor, s.stop - w.cursor⟩⟩

end Window

end Polylex
