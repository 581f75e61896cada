import Polylex.Text.Basic

/-!
# Offsets, boundaries and slices

An offset into a text is the width of what stands before it. This file makes that a
statement: cutting a text at the width of one of its beginnings gives that beginning back
(`Polylex.Text.slice_append`), so the offsets that matter are exactly the *boundaries*,
`Polylex.Text.IsBoundary`, the widths of beginnings of the text. A span whose ends are
boundaries in order is a *range* (`Polylex.Text.IsRange`), and a range is nothing but a way
to cut the text into three (`Polylex.Text.isRange_iff_exists`).

Everything else about positions follows from these: whoever cuts a text into pieces knows
the offsets of the pieces, and whoever knows the offsets gets the pieces back. What is
carried along an argument is `Polylex.Text.At`, that a piece stands at an offset.
-/

namespace Polylex

namespace Text

/-! ### Widths -/

/-- Only the empty text has no width: every character takes at least a byte. -/
@[simp] theorem width_eq_zero {t : Text} : t.width = 0 ↔ t = [] := by
  cases t with
  | nil => simp
  | cons c t => simp [Nat.pos_iff_ne_zero.mp c.utf8Size_pos]

theorem width_pos {t : Text} (h : t ≠ []) : 0 < t.width :=
  Nat.pos_of_ne_zero fun h0 => h (width_eq_zero.mp h0)

/-! ### Cutting at a width -/

@[simp] theorem dropBytes_zero (t : Text) : dropBytes 0 t = t := by
  cases t <;> rfl

theorem dropBytes_append (p s : Text) : dropBytes (width p) (p ++ s) = s := by
  induction p with
  | nil => simp
  | cons c p ih =>
    obtain ⟨n, hn⟩ : ∃ n, width (c :: p) = n + 1 :=
      Nat.exists_eq_add_one.mpr (width_pos (List.cons_ne_nil c p))
    have hsub : n + 1 - c.utf8Size = width p := by
      rw [← hn, width_cons]
      omega
    rw [hn, List.cons_append, dropBytes, hsub, ih]

theorem takeBytes_append (p s : Text) : takeBytes (width p) (p ++ s) = p := by
  induction p with
  | nil =>
    cases s with
    | nil => rfl
    | cons c s => simp [takeBytes, Nat.pos_iff_ne_zero.mp c.utf8Size_pos]
  | cons c p ih =>
    rw [List.cons_append, takeBytes, if_pos (by simp), width_cons, Nat.add_sub_cancel_left, ih]

/-- What has been cut to a number of bytes is not shortened by cutting it again. -/
theorem takeBytes_takeBytes (n : Nat) (t : Text) : takeBytes n (takeBytes n t) = takeBytes n t := by
  induction t generalizing n with
  | nil => rfl
  | cons c t ih =>
    by_cases hc : c.utf8Size ≤ n
    · rw [takeBytes, if_pos hc, takeBytes, if_pos hc, ih]
    · rw [takeBytes, if_neg hc, takeBytes]

theorem takeBytes_zero (t : Text) : takeBytes 0 t = [] := by
  cases t with
  | nil => rfl
  | cons c t => rw [takeBytes, if_neg (Nat.not_le.mpr c.utf8Size_pos)]

/-! ### Slices -/

/-- **A slice between two widths** is what stands between the two places. -/
theorem slice_append (p m s : Text) : slice (p ++ m ++ s) ⟨width p, width p + width m⟩ = m := by
  rw [slice, Nat.add_sub_cancel_left, List.append_assoc, dropBytes_append, takeBytes_append]

theorem slice_all (t : Text) : slice t ⟨0, t.width⟩ = t := by
  simpa using slice_append [] t []

/-- A span without bytes cuts nothing out. -/
theorem slice_eq_nil (t : Text) {s : Span} (h : s.start = s.stop) : slice t s = [] := by
  rw [slice, h, Nat.sub_self, takeBytes_zero]

/-- A slice, cut again from its own start to its own end, is unchanged. -/
theorem slice_slice (t : Text) (s : Span) :
    slice (slice t s) ⟨0, s.stop - s.start⟩ = slice t s := by
  simp only [slice, Nat.sub_zero, dropBytes_zero]
  exact takeBytes_takeBytes _ _

/-! ### Boundaries and ranges -/

/-- An offset between two characters of a text, or at one of its ends. -/
def IsBoundary (t : Text) (n : Nat) : Prop := ∃ p s, t = p ++ s ∧ n = width p

/-- A span from one boundary of a text to another that is not before it. -/
structure IsRange (t : Text) (s : Span) : Prop where
  start : t.IsBoundary s.start
  stop : t.IsBoundary s.stop
  start_le_stop : s.start ≤ s.stop

theorem isBoundary_width_append (p s : Text) : (p ++ s).IsBoundary (width p) := ⟨p, s, rfl, rfl⟩

/-- Of two beginnings of a text, the one that is not wider is a beginning of the other. -/
theorem prefix_of_width_le {p s q r : Text} (h : p ++ s = q ++ r) (hw : width p ≤ width q) :
    ∃ m, q = p ++ m := by
  rcases List.append_eq_append_iff.mp h with ⟨m, hq, -⟩ | ⟨m, hp, -⟩
  · exact ⟨m, hq⟩
  · have hm : width m = 0 := by
      rw [hp, width_append] at hw
      omega
    rw [width_eq_zero.mp hm, List.append_nil] at hp
    exact ⟨[], by rw [hp, List.append_nil]⟩

/-- **A range cuts the text into three**, and the middle part is its slice. -/
theorem isRange_iff_exists {t : Text} {s : Span} :
    t.IsRange s ↔ ∃ p m r, t = p ++ m ++ r ∧ s = ⟨width p, width p + width m⟩ := by
  constructor
  · rintro ⟨⟨p, u, hp, hstart⟩, ⟨q, r, hq, hstop⟩, hle⟩
    obtain ⟨m, rfl⟩ := prefix_of_width_le (hp.symm.trans hq) (by rw [← hstart, ← hstop]; exact hle)
    refine ⟨p, m, r, hq, ?_⟩
    cases s
    simp_all
  · rintro ⟨p, m, r, rfl, rfl⟩
    refine ⟨?_, ?_, Nat.le_add_right _ _⟩
    · rw [List.append_assoc]
      exact isBoundary_width_append p (m ++ r)
    · exact ⟨p ++ m, r, rfl, by simp⟩

/-! ### Pieces -/

/-- A piece stands at an offset of a text. -/
def At (t : Text) (offset : Nat) (m : Text) : Prop :=
  ∃ p r, t = p ++ m ++ r ∧ offset = width p

section At

variable {t m m' : Text} {offset : Nat}

theorem At.slice_eq (h : t.At offset m) : t.slice ⟨offset, offset + m.width⟩ = m := by
  obtain ⟨p, r, rfl, rfl⟩ := h
  exact slice_append p m r

theorem At.left (h : t.At offset (m ++ m')) : t.At offset m := by
  obtain ⟨p, r, rfl, rfl⟩ := h
  exact ⟨p, m' ++ r, by simp, rfl⟩

theorem At.right (h : t.At offset (m ++ m')) : t.At (offset + m.width) m' := by
  obtain ⟨p, r, rfl, rfl⟩ := h
  exact ⟨p ++ m, r, by simp, by simp⟩

/-- A place where a piece stands is a range. -/
theorem At.isRange (h : t.At offset m) : t.IsRange ⟨offset, offset + m.width⟩ := by
  obtain ⟨p, r, ht, rfl⟩ := h
  exact isRange_iff_exists.mpr ⟨p, m, r, ht, rfl⟩

/-- **A range is a place where a piece stands**, namely its slice. -/
theorem IsRange.at {s : Span} (h : t.IsRange s) :
    t.At s.start (t.slice s) ∧ s.stop = s.start + (t.slice s).width := by
  obtain ⟨p, m, r, rfl, rfl⟩ := isRange_iff_exists.mp h
  rw [slice_append]
  exact ⟨⟨p, r, rfl, rfl⟩, rfl⟩

/-- A range of some bytes holds a piece. -/
theorem IsRange.slice_ne_nil {s : Span} (h : t.IsRange s) (hlt : s.start < s.stop) :
    t.slice s ≠ [] := by
  intro hnil
  have hstop := h.at.2
  rw [hnil, width_nil] at hstop
  omega

end At

end Text

end Polylex
