import Polylex.Proofs.Literal.Division
import Polylex.Proofs.Literal.Exhausted

/-!
# Bodies whose end the limit does not move

Without any level left an opening delimiter is kept as text, and the expression behind it is
read as part of the body. The body ends where it should if nothing in the expression means
anything to the literal: no character of it begins the closing delimiter or an opening one,
escapes, or ends the line of a literal that ends with its line
(`Polylex.Literal.Host.Inert`). What this file proves is that this is enough
(`Polylex.Literal.Place.Clear.steady`).

The proof compares the two scans segment by segment. What opens with a level left opens
without one (`Polylex.Literal.firstSegment?_none_eq`), so the segments are the same but for
the zones, and a zone is its opening delimiter and characters that mean nothing.
-/

namespace Polylex.Literal

variable {find : CloserSearch} {host : Host} {offset : Nat} {t : Text}

/-! ### Opening without a level left -/

/-- The opening delimiter of what opens at a place. -/
def Opening.opener : Opening → Text
  | .zone z => z.opener
  | .unmatched opener => opener
  | .tooDeep opener => opener

/-- What opens with a level left opens without one, and is kept as text. -/
theorem opening?_none_eq (find : CloserSearch) (forms : List Interpolation) :
    opening? none host offset t forms =
      (opening? (some find) host offset t forms).map fun o => .tooDeep o.opener := by
  induction forms with
  | nil => rfl
  | cons form forms ih =>
    cases form with
    | braced opener closer grammar =>
      rw [opening?, opening?]
      split
      · dsimp only
        split <;> rfl
      · exact ih
    | sigil mark grammar =>
      cases t with
      | nil => rfl
      | cons c rest =>
        rw [opening?, opening?]
        split
        · rfl
        · exact ih

/-- A segment as it is read without any level left. -/
def Segment.kept : Segment → Segment
  | .zone z => .tooDeep z.opener
  | .unmatched opener => .tooDeep opener
  | seg => seg

/-- Without any level left the same stands at a place, but no zone. -/
theorem firstSegment?_none_eq (find : CloserSearch) (offset : Nat) (t : Text) :
    firstSegment? none host false offset t =
      (firstSegment? (some find) host false offset t).map Segment.kept := by
  cases t with
  | nil => rfl
  | cons c t =>
    rw [firstSegment?, firstSegment?, opening?_none_eq find]
    split
    · rfl
    split
    · rfl
    split
    · rfl
    rw [if_neg Bool.false_ne_true, if_neg Bool.false_ne_true]
    cases opening? (some find) host offset (c :: t) host.forms with
    | none => rfl
    | some o => cases o <;> rfl

/-! ### Characters that mean nothing -/

/-- A character that means nothing to a literal: it begins neither the closing delimiter nor
an opening one, does not escape, and does not end the line if the literal ends with it. -/
structure Host.Inert (h : Host) (c : Char) : Prop where
  closer : ∀ t, h.closingLength? (c :: t) = none
  escape : h.escape ≠ some c
  feed : ¬(c = '\n' && !h.multiline) = true
  forms : ∀ form ∈ h.forms, form.opener ≠ [] ∧ form.opener.head? ≠ some c

/-- Nothing opens where no opening delimiter begins. -/
theorem opening?_eq_none {search : Option CloserSearch} {c : Char} {forms : List Interpolation}
    (h : ∀ form ∈ forms, form.opener ≠ [] ∧ form.opener.head? ≠ some c) :
    opening? search host offset (c :: t) forms = none := by
  refine opening?_eq_none_iff.mpr fun form hform hopens => ?_
  obtain ⟨hne, hhead⟩ := h form hform
  rcases form with ⟨opener, closer, g⟩ | ⟨mark, g⟩
  · obtain ⟨d, opener, rfl⟩ := List.exists_cons_of_ne_nil hne
    exact hhead (congrArg some (List.cons_prefix_cons.mp hopens).1)
  · exact hhead (congrArg some (opens_sigil_iff.mp hopens).1.symm)

/-- Characters that mean nothing are read one by one. -/
theorem scanFrom_inert (search : Option CloserSearch) (offset : Nat) {p : Text} (r : Text)
    (hp : ∀ c ∈ p, host.Inert c) :
    scanFrom search host 0 false offset (p ++ r) =
      (scanFrom search host 0 false (offset + p.width) r).laterBy p.length := by
  induction p generalizing offset with
  | nil => rfl
  | cons c p ih =>
    obtain ⟨hc, hp⟩ := List.forall_mem_cons.mp hp
    rw [List.cons_append, scanFrom, hc.closer]
    dsimp only
    rw [if_neg hc.escape, if_neg hc.feed, if_neg Bool.false_ne_true, opening?_eq_none hc.forms]
    dsimp only
    rw [ih _ hp, Text.width_cons, Nat.add_assoc]
    rfl

/-! ### Steady bodies -/

/-- The extent of a scan without any level left, when the zones that there would be with one
level hold nothing that means anything to the literal, and no opening delimiter would be
unmatched. -/
theorem extent_scanFrom_none (hforms : ∀ form ∈ host.forms, form.opener ≠ [])
    (hsound : CloserSearch.Sound find) (plain : Bool) (offset : Nat) (t : Text) :
    plain = false → (scanFrom (some find) host 0 plain offset t).diagnostics = [] →
      (∀ z ∈ (scanFrom (some find) host 0 plain offset t).zones,
        ∀ c ∈ z.body ++ z.closer, host.Inert c) →
      (scanFrom none host 0 false offset t).extent =
        (scanFrom (some find) host 0 plain offset t).extent := by
  refine scanFrom_induction (motive := fun plain offset t s => plain = false → s.diagnostics = [] →
    (∀ z ∈ s.zones, ∀ c ∈ z.body ++ z.closer, host.Inert c) →
      (scanFrom none host 0 false offset t).extent = s.extent) hforms
    (by rintro _ ⟨⟩; exact hsound) ?_ ?_ plain offset t
  · rintro plain offset t hstop rfl - -
    have hnone : firstSegment? none host false offset t = none := by
      rw [firstSegment?_none_eq find, hstop, Option.map_none]
    rw [scanFrom_eq_bodyEnd hnone]
  · rintro plain offset seg rest s hseg ih rfl hreports hzones
    have hkept : firstSegment? none host false offset (seg.text ++ rest) = some seg.kept := by
      rw [firstSegment?_none_eq find, hseg, Option.map_some]
    obtain ⟨rest', htext, -, hscan⟩ := exists_scanFrom_eq_after hforms (by simp) hkept
    rw [hscan]
    obtain ⟨hreport, hlater⟩ := List.append_eq_nil_iff.mp hreports
    obtain ⟨hzone, hinert⟩ := List.forall_mem_append.mp hzones
    clear hreports hzones
    -- All but a zone is read in the same way.
    have hsame (hseg : seg.kept = seg) (hplain : seg.plainAfter false = false) :
        ((scanFrom none host 0 (seg.kept.plainAfter false) (offset + seg.kept.text.width)
          rest').after host offset seg.kept).extent = (s.after host offset seg).extent := by
      rw [hseg] at htext ⊢
      obtain rfl : rest' = rest := (List.append_cancel_left htext).symm
      obtain ⟨hread, hclosed⟩ := Prod.mk.inj (ih hplain hlater hinert)
      rw [hplain]
      exact Prod.ext (congrArg (· + seg.text.length) hread) hclosed
    cases seg with
    | zone z =>
      -- A zone is read as its opening delimiter and characters that mean nothing.
      obtain rfl : rest' = z.body ++ z.closer ++ rest := by
        simpa [Segment.text, Segment.kept, Zone.text] using htext.symm
      obtain ⟨hread, hclosed⟩ := Prod.mk.inj (ih rfl hlater hinert)
      have hpass := scanFrom_inert none (offset + z.opener.width) rest
        (hzone z (List.mem_singleton.mpr rfl))
      have hoffset : offset + z.opener.width + (z.body ++ z.closer).width =
          offset + z.text.width := by
        simp [Zone.text, Nat.add_assoc]
      rw [hoffset] at hpass
      have hlength : (scanFrom none host 0 false (offset + z.opener.width)
          (z.body ++ z.closer ++ rest)).length + z.opener.length = s.length + z.text.length := by
        rw [hpass, ← hread]
        simp only [BodyScan.laterBy, Zone.text, List.length_append, Segment.text]
        omega
      exact Prod.ext hlength ((congrArg BodyScan.closed hpass).trans hclosed)
    | unmatched opener => cases hreport
    | escaped text => exact hsame rfl rfl
    | tooDeep opener => exact hsame rfl rfl
    | plain c => exact hsame rfl rfl

/-- **The zones of a body hold nothing of the literal**: with one level every opening delimiter is
matched, and no character of an expression, or of the delimiter behind it, means anything to the
literal. -/
structure Place.Clear (p : Place) : Prop where
  opener_ne : ∀ form ∈ p.host.forms, form.opener ≠ []
  matched : (p.scan (scanBody 1)).diagnostics = []
  inert : ∀ z ∈ (p.scan (scanBody 1)).zones, ∀ c ∈ z.body ++ z.closer, p.host.Inert c

/-- **A body is steady if its zones hold nothing of the literal.** -/
theorem Place.Clear.steady {p : Place} (h : p.Clear) : p.Steady :=
  extent_scanFrom_none h.opener_ne (sound_findCloser 0) false p.offset p.text rfl h.matched h.inert

end Polylex.Literal
