import Mathlib.Data.List.Basic
import Polylex.Proofs.Offset
import Polylex.Text.LineIndex

/-!
# Offsets and positions

The index of a text is made in one pass over its characters, and looked up by a search among the
offsets at which lines begin. Neither is a good way to say what a line is. Here lines are counted
by bytes: a byte of value ten is a line feed, since no other character has such a byte in UTF-8
(`Polylex.Text.feed_mem_encode_iff`), and the line of an offset is the number of line feeds in front
of it (`Polylex.Text.feedsBefore`). A text has as many bytes as it is wide
(`Polylex.Text.length_bytes`), so offsets up to its end are offsets among its bytes.

The table of the index then holds the beginnings of the lines (`Polylex.Text.LineBegins`) in their
order (`Polylex.LineIndex.getElem?_starts_iff`), and the search counts line feeds
(`Polylex.LineIndex.length_takeWhile_starts`). Positions in the text and offsets up to its end
correspond to each other, and the order is kept; but there are more pairs of a line and a column
than there are positions, for a column may run on beyond the end of its line
(`Polylex.LineIndex.position_inverse_offset?_of_fits`). It may even run on so far that the sum does
not fit into 32 bits, and then there is no answer, or a wrong one
(`Polylex.LineIndex.offset?_of_far_column`).
-/

namespace Polylex

namespace Text

/-! ### Line feeds by bytes -/

/-- The bytes of a text in UTF-8. -/
def bytes (t : Text) : List UInt8 := t.flatMap String.utf8EncodeChar

/-- The byte of a line feed. -/
def feed : UInt8 := 10

@[simp] theorem bytes_nil : bytes [] = [] := rfl

@[simp] theorem bytes_cons (c : Char) (t : Text) :
    bytes (c :: t) = String.utf8EncodeChar c ++ bytes t := rfl

theorem length_bytes (t : Text) : t.bytes.length = t.width := by
  induction t with
  | nil => rfl
  | cons c t ih => rw [bytes_cons, List.length_append, String.length_utf8EncodeChar, ih, width_cons]

/-- The bytes of a character that needs more than one are not ASCII. -/
theorem le_toNat_of_mem_encode {c : Char} (hc : ¬c.val.toNat ≤ 127) :
    ∀ b ∈ String.utf8EncodeChar c, 128 ≤ b.toNat := by
  rw [String.utf8EncodeChar, if_neg hc]
  simp only [apply_ite (fun bytes : List UInt8 => ∀ b ∈ bytes, 128 ≤ b.toNat), List.forall_mem_cons,
    UInt8.toNat_ofNat']
  split
  · exact ⟨by omega, by omega, List.forall_mem_nil _⟩
  · split
    · exact ⟨by omega, by omega, by omega, List.forall_mem_nil _⟩
    · exact ⟨by omega, by omega, by omega, by omega, List.forall_mem_nil _⟩

/-- **Only a line feed has the byte of a line feed.** -/
theorem feed_mem_encode_iff {c : Char} : feed ∈ String.utf8EncodeChar c ↔ c = '\n' := by
  constructor
  · intro h
    by_cases hc : c.val.toNat ≤ 127
    · rw [String.utf8EncodeChar, if_pos hc, List.mem_singleton] at h
      have hten : 10 = c.val.toNat % 256 := by simpa [feed] using congrArg UInt8.toNat h
      exact Char.ext (UInt32.toNat_inj.mp (show c.val.toNat = 10 by omega))
    · exact absurd (le_toNat_of_mem_encode hc feed h) (by decide)
  · rintro rfl
    decide

/-- The number of line feeds among the first bytes of a text. -/
def feedsBefore (t : Text) (o : Nat) : Nat := (t.bytes.take o).count feed

variable {t : Text} {o o' s i k : Nat}

@[simp] theorem feedsBefore_zero : t.feedsBefore 0 = 0 := rfl

theorem feedsBefore_succ :
    t.feedsBefore (o + 1) = t.feedsBefore o + if t.bytes[o]? = some feed then 1 else 0 := by
  rw [feedsBefore, List.take_add_one, List.count_append, feedsBefore]
  rcases t.bytes[o]? with _ | b
  · rfl
  · rw [Option.toList_some, List.count_singleton]
    simp only [beq_iff_eq, Option.some.injEq]

theorem feedsBefore_succ_of_feed (h : t.bytes[o]? = some feed) :
    t.feedsBefore (o + 1) = t.feedsBefore o + 1 := by
  rw [feedsBefore_succ, if_pos h]

theorem feedsBefore_mono (h : o ≤ o') : t.feedsBefore o ≤ t.feedsBefore o' :=
  (List.take_sublist_take_left h).count_le feed

/-! ### Beginnings of lines -/

/-- The offset at which a line begins: the first line at zero, and every other one behind a line
feed, in front of which there are as many as there are lines before its own. -/
def LineBegins (t : Text) : (line : Nat) → (s : Nat) → Prop
  | 0, s => s = 0
  | k + 1, s => ∃ i, t.bytes[i]? = some feed ∧ t.feedsBefore i = k ∧ s = i + 1

/-- **The offset behind the last line feed** in front of an offset, or zero if there is none. -/
structure BehindLastFeed (t : Text) (o s : Nat) : Prop where
  le : s ≤ o
  feed_before : s ≠ 0 → t.bytes[s - 1]? = some feed
  none_between : ∀ i, s ≤ i → i < o → t.bytes[i]? ≠ some feed

/-- In front of the beginning of a line are the line feeds of the lines before it. -/
theorem LineBegins.feedsBefore_eq (h : t.LineBegins k s) : t.feedsBefore s = k := by
  cases k with
  | zero =>
    obtain rfl : s = 0 := h
    rfl
  | succ k =>
    obtain ⟨i, hfeed, hcount, rfl⟩ := h
    rw [feedsBefore_succ_of_feed hfeed, hcount]

/-- The line of an offset begins behind the last line feed. -/
theorem exists_lineBegins (t : Text) (o : Nat) :
    ∃ s, t.BehindLastFeed o s ∧ t.LineBegins (t.feedsBefore o) s := by
  induction o with
  | zero =>
    refine ⟨0, ⟨Nat.le_refl 0, fun h => absurd rfl h, fun i _ hi => ?_⟩, rfl⟩
    exact absurd hi (Nat.not_lt_zero i)
  | succ o ih =>
    by_cases hfeed : t.bytes[o]? = some feed
    · refine ⟨o + 1, ⟨Nat.le_refl _, fun _ => hfeed, fun i hle hlt => ?_⟩, ?_⟩
      · exact absurd hlt (Nat.not_lt.mpr hle)
      · rw [feedsBefore_succ_of_feed hfeed]
        exact ⟨o, hfeed, rfl, rfl⟩
    · obtain ⟨s, hlast, hbegins⟩ := ih
      refine ⟨s, ⟨Nat.le_succ_of_le hlast.le, hlast.feed_before, fun i hle hlt => ?_⟩, ?_⟩
      · rcases Nat.lt_succ_iff_lt_or_eq.mp hlt with hlt | rfl
        · exact hlast.none_between i hle hlt
        · exact hfeed
      · rwa [feedsBefore_succ, if_neg hfeed, Nat.add_zero]

/-- A line that has been counted has begun. -/
theorem exists_lineBegins_succ (h : k < t.feedsBefore o) : ∃ s ≤ o, t.LineBegins (k + 1) s := by
  induction o with
  | zero => exact absurd h (Nat.not_lt_zero k)
  | succ o ih =>
    by_cases hlt : k < t.feedsBefore o
    · obtain ⟨s, hs, hbegins⟩ := ih hlt
      exact ⟨s, Nat.le_succ_of_le hs, hbegins⟩
    · by_cases hfeed : t.bytes[o]? = some feed
      · rw [feedsBefore_succ_of_feed hfeed] at h
        exact ⟨o + 1, Nat.le_refl _, o, hfeed, by omega, rfl⟩
      · rw [feedsBefore_succ, if_neg hfeed] at h
        exact absurd h hlt

end Text

/-- A position comes before another one in an earlier line, or in the same line further left. -/
def Position.Before (p q : Position) : Prop :=
  p.line < q.line ∨ p.line = q.line ∧ p.column < q.column

namespace LineIndex

open Text

variable {t : Text} {o o' s s' k : Nat} {p : Position} {platform : Overflow}

/-! ### The table -/

/-- The offsets behind the line feeds among some bytes. -/
def feedEnds (offset : Nat) : List UInt8 → List Nat
  | [] => []
  | b :: rest =>
    if b = feed then (offset + 1) :: feedEnds (offset + 1) rest else feedEnds (offset + 1) rest

theorem feedEnds_append_of_not_mem {b : List UInt8} (h : feed ∉ b) (offset : Nat)
    (rest : List UInt8) : feedEnds offset (b ++ rest) = feedEnds (offset + b.length) rest := by
  induction b generalizing offset with
  | nil => rfl
  | cons x b ih =>
    rw [List.mem_cons, not_or] at h
    rw [List.cons_append, feedEnds, if_neg (Ne.symm h.1), ih h.2, List.length_cons]
    congr 1
    omega

/-- **The pass over the characters is a pass over the bytes.** -/
theorem startsAfterFeeds_eq_feedEnds (offset : Nat) (t : Text) :
    startsAfterFeeds offset t = feedEnds offset t.bytes := by
  induction t generalizing offset with
  | nil => rfl
  | cons c t ih =>
    rw [startsAfterFeeds, bytes_cons]
    by_cases hc : c = '\n'
    · subst hc
      rw [if_pos rfl, ih]
      rfl
    · rw [if_neg hc, ih, feedEnds_append_of_not_mem (mt feed_mem_encode_iff.mp hc),
        String.length_utf8EncodeChar]

theorem getElem?_feedEnds_iff {offset : Nat} {b : List UInt8} :
    (feedEnds offset b)[k]? = some s ↔
      ∃ i, b[i]? = some feed ∧ (b.take i).count feed = k ∧ s = offset + i + 1 := by
  induction b generalizing offset k with
  | nil => simp [feedEnds]
  | cons x b ih =>
    rw [feedEnds, ← Nat.or_exists_add_one]
    by_cases hx : x = feed
    · subst hx
      cases k with
      | zero => simp [eq_comm]
      | succ k =>
        rw [if_pos rfl, List.getElem?_cons_succ, ih]
        simp [Nat.add_assoc, Nat.add_comm 1]
    · rw [if_neg hx, ih]
      simp [hx, Nat.add_assoc, Nat.add_comm 1]

/-- **The table holds the beginnings of the lines**, in their order. -/
theorem getElem?_starts_iff : (ofText t).starts[k]? = some s ↔ t.LineBegins k s := by
  cases k with
  | zero => exact Option.some_inj.trans eq_comm
  | succ k =>
    rw [ofText, startsAfterFeeds_eq_feedEnds, List.getElem?_cons_succ, getElem?_feedEnds_iff]
    simp only [Nat.zero_add]
    rfl

theorem lineBegins_unique (h : t.LineBegins k s) (h' : t.LineBegins k s') : s = s' := by
  rw [← getElem?_starts_iff] at h h'
  exact Option.some_inj.mp (h.symm.trans h')

theorem length_takeWhile_feedEnds {offset : Nat} {b : List UInt8} :
    ((feedEnds offset b).takeWhile (· ≤ o)).length = (b.take (o - offset)).count feed := by
  induction b generalizing offset with
  | nil => simp [feedEnds]
  | cons x b ih =>
    rw [feedEnds]
    rcases Nat.lt_or_ge offset o with hlt | hge
    · obtain ⟨n, hn⟩ : ∃ n, o - offset = n + 1 := Nat.exists_eq_add_one.mpr (Nat.sub_pos_of_lt hlt)
      have hrest : o - (offset + 1) = n := by omega
      rw [hn, List.take_succ_cons, List.count_cons]
      by_cases hx : x = feed
      · have hin : decide (offset + 1 ≤ o) = true := decide_eq_true hlt
        rw [if_pos hx, List.takeWhile_cons, if_pos hin, List.length_cons, ih, hrest, hx,
          beq_self_eq_true, if_pos rfl]
      · rw [if_neg hx, ih, hrest, if_neg (by simpa using hx), Nat.add_zero]
    · have hnone : o - offset = 0 := Nat.sub_eq_zero_of_le hge
      have hrest : o - (offset + 1) = 0 := Nat.sub_eq_zero_of_le (Nat.le_succ_of_le hge)
      rw [hnone, List.take_zero]
      by_cases hx : x = feed
      · have hout : ¬decide (offset + 1 ≤ o) = true := by simpa using Nat.lt_succ_of_le hge
        rw [if_pos hx, List.takeWhile_cons, if_neg hout]
        rfl
      · rw [if_neg hx, ih, hrest, List.take_zero]

/-- **The search counts line feeds**, and the first line. -/
theorem length_takeWhile_starts :
    ((ofText t).starts.takeWhile (· ≤ o)).length = t.feedsBefore o + 1 := by
  have hzero : decide (0 ≤ o) = true := decide_eq_true (Nat.zero_le o)
  rw [ofText, startsAfterFeeds_eq_feedEnds, List.takeWhile_cons, if_pos hzero, List.length_cons,
    length_takeWhile_feedEnds]
  rfl

/-! ### Positions -/

/-- The position of an offset, once the beginning of its line is known. -/
theorem position_eq (ho : o ≤ t.width) (h : t.LineBegins (t.feedsBefore o) s) :
    (ofText t).position o = ⟨t.feedsBefore o, o - s⟩ := by
  have hplace : min o (ofText t).width = o := Nat.min_eq_left ho
  rw [position, hplace, length_takeWhile_starts, Nat.add_sub_cancel, List.getD_eq_getElem?_getD,
    getElem?_starts_iff.mpr h, Option.getD_some]

theorem exists_position_eq (ho : o ≤ t.width) :
    ∃ s, t.BehindLastFeed o s ∧ t.LineBegins (t.feedsBefore o) s ∧
      (ofText t).position o = ⟨t.feedsBefore o, o - s⟩ := by
  obtain ⟨s, hlast, hbegins⟩ := t.exists_lineBegins o
  exact ⟨s, hlast, hbegins, position_eq ho hbegins⟩

theorem position_of_width_le (h : t.width ≤ o) :
    (ofText t).position o = (ofText t).position t.width := by
  have hplace : min o (ofText t).width = min t.width (ofText t).width :=
    (Nat.min_eq_right h).trans (Nat.min_self t.width).symm
  rw [position, position, hplace]

/-- A line that does not exist has no offsets. -/
theorem offset?_of_no_line (h : ¬∃ s, t.LineBegins p.line s) :
    (ofText t).offset? platform p = .ok none := by
  have hnone : (ofText t).starts[p.line]? = none :=
    Option.eq_none_iff_forall_ne_some.mpr fun s hs => h ⟨s, getElem?_starts_iff.mp hs⟩
  rw [offset?, hnone]

/-- In a line that exists the sum decides. -/
theorem offset?_of_lineBegins (h : t.LineBegins p.line s) :
    (ofText t).offset? platform p =
      (platform.add s p.column).map fun o => if o ≤ t.width then some o else none := by
  rw [offset?, getElem?_starts_iff.mpr h]
  dsimp only
  rcases platform.add s p.column with e | o <;> rfl

/-- **A pair whose sum fits** has an offset if the column does not lead beyond the end of the
text. -/
theorem offset?_of_fits (h : t.LineBegins p.line s) (hfits : s + p.column < Span.offsetBound) :
    (ofText t).offset? platform p =
      .ok (if s + p.column ≤ t.width then some (s + p.column) else none) := by
  have hadd : platform.add s p.column = .ok (s + p.column) := if_pos hfits
  rw [offset?_of_lineBegins h, hadd]
  rfl

theorem offset?_eq_some_iff (h : t.LineBegins p.line s) (hfits : s + p.column < Span.offsetBound) :
    (ofText t).offset? platform p = .ok (some o) ↔ o = s + p.column ∧ s + p.column ≤ t.width := by
  rw [offset?_of_fits h hfits, Except.ok.injEq]
  split <;> simp [eq_comm, *]

/-- **A pair whose sum does not fit** has no answer where the platform stops. Where it goes on, the
answer is an offset in front of the line. -/
theorem offset?_of_overflow (h : t.LineBegins p.line s) (hs : s ≤ t.width)
    (ht : t.width < Span.offsetBound) (hcolumn : p.column < Span.offsetBound)
    (hover : Span.offsetBound ≤ s + p.column) :
    (ofText t).offset? .stops p = .error .overflow ∧
      (ofText t).offset? .wraps p = .ok (some (s + p.column - Span.offsetBound)) ∧
      s + p.column - Span.offsetBound < s := by
  have hmod : (s + p.column) % Span.offsetBound = s + p.column - Span.offsetBound := by
    rw [Nat.mod_eq_sub_mod hover, Nat.mod_eq_of_lt (by omega)]
  have hlt : s + p.column - Span.offsetBound < s := by omega
  have hstops : Overflow.stops.add s p.column = .error .overflow := if_neg (Nat.not_lt.mpr hover)
  have hwraps : Overflow.wraps.add s p.column = .ok (s + p.column - Span.offsetBound) :=
    (if_neg (Nat.not_lt.mpr hover)).trans (congrArg Except.ok hmod)
  have hle : s + p.column - Span.offsetBound ≤ t.width := Nat.le_trans (Nat.le_of_lt hlt) hs
  rw [offset?_of_lineBegins h, offset?_of_lineBegins h, hstops, hwraps]
  exact ⟨rfl, congrArg Except.ok (if_pos hle), hlt⟩

theorem offset?_position (ht : t.width < Span.offsetBound) (ho : o ≤ t.width) :
    (ofText t).offset? platform ((ofText t).position o) = .ok (some o) := by
  obtain ⟨s, hlast, hbegins, hposition⟩ := exists_position_eq ho
  have hsum : s + (o - s) = o := Nat.add_sub_of_le hlast.le
  have hfits : s + (o - s) < Span.offsetBound := by
    rw [hsum]
    exact Nat.lt_of_le_of_lt ho ht
  rw [hposition, offset?_eq_some_iff hbegins hfits]
  exact ⟨hsum.symm, Nat.le_trans (Nat.le_of_eq hsum) ho⟩

/-- **Positions come in the order of their offsets.** -/
theorem position_before (hlt : o < o') (ho' : o' ≤ t.width) :
    ((ofText t).position o).Before ((ofText t).position o') := by
  obtain ⟨s, hlast, hbegins, hposition⟩ :=
    exists_position_eq (Nat.le_of_lt (Nat.lt_of_lt_of_le hlt ho'))
  obtain ⟨s', -, hbegins', hposition'⟩ := exists_position_eq ho'
  rw [hposition, hposition']
  rcases Nat.lt_or_eq_of_le (feedsBefore_mono (t := t) (Nat.le_of_lt hlt)) with hline | hline
  · exact .inl hline
  · rw [← hline] at hbegins'
    obtain rfl := lineBegins_unique hbegins hbegins'
    exact .inr ⟨hline, Nat.sub_lt_sub_right hlast.le hlt⟩

/-- An offset behind the beginning of a line is in that line, or in a later one; and if it is in
that line, its column is what is left behind the beginning. -/
theorem line_le_of_lineBegins (h : t.LineBegins p.line s) (hle : s + p.column ≤ t.width) :
    p.line ≤ ((ofText t).position (s + p.column)).line ∧
      ((ofText t).position (s + p.column) = p ↔
        ((ofText t).position (s + p.column)).line = p.line) := by
  obtain ⟨s', -, hbegins', hposition⟩ := exists_position_eq hle
  rw [hposition]
  dsimp only
  refine ⟨?_, fun hp => congrArg Position.line hp, fun hline => ?_⟩
  · have hmore := feedsBefore_mono (t := t) (Nat.le_add_right s p.column)
    rwa [h.feedsBefore_eq] at hmore
  · rw [hline] at hbegins' ⊢
    obtain rfl := lineBegins_unique h hbegins'
    rw [Nat.add_sub_cancel_left]

/-- An offset behind the beginning of a line is in that line as long as the next line does not
begin. -/
theorem line_eq_iff (hle : k ≤ t.feedsBefore o) :
    t.feedsBefore o = k ↔
      (¬∃ next, t.LineBegins (k + 1) next) ∨ ∃ next, t.LineBegins (k + 1) next ∧ o < next := by
  constructor
  · intro hline
    by_cases hnext : ∃ next, t.LineBegins (k + 1) next
    · obtain ⟨next, hbegins⟩ := hnext
      refine .inr ⟨next, hbegins, Nat.not_le.mp fun hpast => ?_⟩
      have hmore := feedsBefore_mono (t := t) hpast
      rw [hbegins.feedsBefore_eq] at hmore
      omega
    · exact .inl hnext
  · intro h
    by_contra hline
    obtain ⟨next, hpast, hbegins⟩ := t.exists_lineBegins_succ (o := o) (k := k) (by omega)
    rcases h with hlast | ⟨next', hbegins', hlt⟩
    · exact hlast ⟨next, hbegins⟩
    · obtain rfl := lineBegins_unique hbegins hbegins'
      exact absurd hlt (Nat.not_lt.mpr hpast)

/-- The beginning of a line is in the text. -/
theorem le_width_of_lineBegins (h : t.LineBegins k s) : s ≤ t.width := by
  cases k with
  | zero => exact Nat.le_trans (Nat.le_of_eq h) (Nat.zero_le _)
  | succ k =>
    obtain ⟨i, hfeed, -, rfl⟩ := h
    have hlt : i < t.bytes.length := (List.getElem?_eq_some_iff.mp hfeed).1
    rwa [length_bytes] at hlt

/-- **The index is an exact inverse as long as sums fit.** The line of an offset up to the end of
the text is the number of line feeds in front of it, and its column is what is left behind the last of
them; the position leads back to the offset. Positions are in the order of their offsets, and from
the end of the text on they do not change.

A pair whose line does not exist has no offset. Otherwise the sum of the beginning of the line and
the column matters.

* If it fits into 32 bits, then the pair has an offset exactly if the sum does not lead beyond the
  end of the text. The pair is the position of that offset exactly if the line is the last one or
  the column does not reach the next line; otherwise the offset is in a later line.
* If it does not fit, then the platform stops, or the answer is an offset in front of the line,
  although the sum leads beyond the end of the text. -/
theorem position_inverse_offset?_of_fits (t : Text) (ht : t.width < Span.offsetBound) :
    (∀ o ≤ t.width,
      (∃ s, t.BehindLastFeed o s ∧ (ofText t).position o = ⟨t.feedsBefore o, o - s⟩) ∧
      ∀ platform, (ofText t).offset? platform ((ofText t).position o) = .ok (some o)) ∧
    (∀ o o', o < o' → o' ≤ t.width →
      ((ofText t).position o).Before ((ofText t).position o')) ∧
    (∀ o, t.width ≤ o → (ofText t).position o = (ofText t).position t.width) ∧
    ∀ p : Position, p.column < Span.offsetBound →
      ((¬∃ s, t.LineBegins p.line s) → ∀ platform, (ofText t).offset? platform p = .ok none) ∧
      ∀ s, t.LineBegins p.line s →
        (s + p.column < Span.offsetBound →
          (∀ platform, (ofText t).offset? platform p =
            .ok (if s + p.column ≤ t.width then some (s + p.column) else none)) ∧
          (s + p.column ≤ t.width →
            ((ofText t).position (s + p.column) = p ↔
              (¬∃ next, t.LineBegins (p.line + 1) next) ∨
                ∃ next, t.LineBegins (p.line + 1) next ∧ s + p.column < next) ∧
            ((ofText t).position (s + p.column) ≠ p →
              p.line < ((ofText t).position (s + p.column)).line))) ∧
        (Span.offsetBound ≤ s + p.column → t.width < s + p.column ∧
          (ofText t).offset? .stops p = .error .overflow ∧
          (ofText t).offset? .wraps p = .ok (some (s + p.column - Span.offsetBound)) ∧
          s + p.column - Span.offsetBound < s) := by
  refine ⟨fun o ho => ⟨?_, fun _ => offset?_position ht ho⟩, fun o o' => position_before,
    fun o => position_of_width_le, fun p hcolumn => ⟨fun hnone _ => offset?_of_no_line hnone,
    fun s hs => ⟨fun hfits => ⟨fun _ => offset?_of_fits hs hfits, fun hle => ?_⟩, fun hover => ?_⟩⟩⟩
  · obtain ⟨s, hlast, -, hposition⟩ := exists_position_eq ho
    exact ⟨s, hlast, hposition⟩
  · obtain ⟨hline, hsame⟩ := line_le_of_lineBegins hs hle
    obtain ⟨_, -, -, hposition⟩ := exists_position_eq hle
    constructor
    · rw [hsame]
      rw [hposition] at hline ⊢
      exact line_eq_iff hline
    · intro hne
      exact Nat.lt_of_le_of_ne hline fun heq => hne (hsame.mpr heq.symm)
  · exact ⟨Nat.lt_of_lt_of_le ht hover,
      offset?_of_overflow hs (le_width_of_lineBegins hs) ht hcolumn hover⟩

/-- The case of a text whose first line ends in a character of two bytes, with an empty last line:
its position behind the first line feed, a column that runs on into the second line, and one in the
second line whose sum does not fit. -/
theorem position_inverse_offset?_of_fits_accent :
    let t : Text := ['a', 'é', '\n', 'b', '\n']
    t.width < Span.offsetBound ∧ (ofText t).position 4 = ⟨1, 0⟩ ∧
      (ofText t).offset? .stops ⟨1, 0⟩ = .ok (some 4) ∧
      (ofText t).offset? .stops ⟨0, 5⟩ = .ok (some 5) ∧ 0 < ((ofText t).position 5).line ∧
      (ofText t).offset? .stops ⟨1, 4294967295⟩ = .error .overflow := by
  intro t
  have hwidth : t.width < Span.offsetBound := by decide
  have hposition : (ofText t).position 4 = ⟨1, 0⟩ := by decide
  have hfirst : t.LineBegins 0 0 := rfl
  have hsecond : t.LineBegins 1 4 := getElem?_starts_iff.mp (by decide)
  obtain ⟨hinverse, -, -, hpairs⟩ := position_inverse_offset?_of_fits t hwidth
  obtain ⟨hanswer, hline⟩ := ((hpairs ⟨0, 5⟩ (by decide)).2 0 hfirst).1 (by decide)
  obtain ⟨-, hstops, -⟩ := ((hpairs ⟨1, 4294967295⟩ (by decide)).2 4 hsecond).2 (by decide)
  refine ⟨hwidth, hposition, ?_, hanswer .stops, ?_, hstops⟩
  · rw [← hposition]
    exact (hinverse 4 (by decide)).2 .stops
  · exact (hline (by decide)).2 (by decide)

/-- **A sum that does not fit.** In the text of an `a` and a `b` in two lines, the second line
begins at offset two and ends at three. A column that leads far beyond the end stops the platform, or has
the offset of the line feed in front of the line. -/
theorem offset?_of_far_column :
    let t : Text := ['a', '\n', 'b']
    let p : Position := ⟨1, 4294967295⟩
    (ofText t).starts[p.line]? = some 2 ∧ t.width < 2 + p.column ∧ p.column < Span.offsetBound ∧
      (ofText t).offset? .stops p = .error .overflow ∧
      (ofText t).offset? .wraps p = .ok (some 1) := by
  decide

end LineIndex

end Polylex
