import Polylex.Proofs.Offset
import Polylex.Proofs.Validation
import Polylex.Literal.Body

/-!
# A body, segment by segment

The loop through the body of a literal counts down what it has still to pass over, which is
right for a program that is structural on the text and wrong for an argument. This file
takes the counting out. `Polylex.Literal.firstSegment?` says what stands at a place of a
body: an escaped character, a zone, an opening delimiter that is kept as text, or one
character – or nothing, where the body ends. The scan of a body is what its first segment
contributes and the scan of the rest
(`Polylex.Literal.exists_scanFrom_eq_after`, `Polylex.Literal.scanFrom_eq_bodyEnd`), and
`Polylex.Literal.scanFrom_induction` is the induction along the segments.

Two things have to be known for this. Every opening delimiter is nonempty, so that a
segment reads something; and the search for the end of an expression stays inside the text
and stops at a closing delimiter (`Polylex.Literal.CloserSearch.Sound`), which it does
whatever literals it has to skip on the way (`Polylex.Literal.sound_findCloser`).
-/

namespace Polylex

namespace Zone

/-- A zone as it stands in the text. -/
def text (z : Zone) : Text := z.opener ++ z.body ++ z.closer

theorem length_text (z : Zone) : z.text.length = z.length := by
  simp [text, length, Nat.add_assoc]

theorem start_add_width_text (z : Zone) : z.start + z.text.width = z.stop := by
  simp [text, stop, bodyStop, bodyStart, Nat.add_assoc]

end Zone

namespace Literal

/-! ### Passing over characters -/

/-- So many more characters in front. -/
def BodyScan.laterBy (n : Nat) (s : BodyScan) : BodyScan := { s with length := s.length + n }

variable {search : Option CloserSearch} {host : Host} {plain : Bool} {offset : Nat}
variable {c : Char} {t p r : Text}

@[simp] theorem scanFrom_nil (skip : Nat) : scanFrom search host skip plain offset [] = {} := by
  cases skip <;> rfl

theorem scanFrom_append (p t : Text) (offset : Nat) :
    scanFrom search host p.length plain offset (p ++ t) =
      (scanFrom search host 0 plain (offset + p.width) t).laterBy p.length := by
  induction p generalizing offset with
  | nil => rfl
  | cons c p ih =>
    rw [List.length_cons, List.cons_append, scanFrom, ih, Text.width_cons, Nat.add_assoc]
    rfl

/-- What is read in one go is passed over: its first character by the step that finds it,
and the others by counting. -/
theorem scanFrom_pass (h : c :: t = p ++ r) (hp : p ≠ []) :
    (scanFrom search host (p.length - 1) plain (offset + c.utf8Size) t).later =
      (scanFrom search host 0 plain (offset + p.width) r).laterBy p.length := by
  cases p with
  | nil => exact absurd rfl hp
  | cons d p =>
    rw [List.cons_append, List.cons.injEq] at h
    obtain ⟨rfl, rfl⟩ := h
    rw [List.length_cons, Nat.add_sub_cancel, scanFrom_append, Text.width_cons, Nat.add_assoc]
    rfl

section Closer

variable {scan : BodyScanner} {closer : Text} {literals : List Delimited} {depth : Nat}

theorem closerFrom_append (p t : Text) (offset : Nat) :
    closerFrom scan closer literals host p.length depth offset (p ++ t) =
      (closerFrom scan closer literals host 0 depth (offset + p.width) t).map (· + p.length) := by
  induction p generalizing offset with
  | nil => simp
  | cons c p ih =>
    rw [List.length_cons, List.cons_append, closerFrom, ih, Text.width_cons, Nat.add_assoc,
      Option.map_map]
    rfl

theorem closerFrom_pass (h : c :: t = p ++ r) (hp : p ≠ []) :
    (closerFrom scan closer literals host (p.length - 1) depth (offset + c.utf8Size) t).map
        (· + 1) =
      (closerFrom scan closer literals host 0 depth (offset + p.width) r).map (· + p.length) := by
  cases p with
  | nil => exact absurd rfl hp
  | cons d p =>
    rw [List.cons_append, List.cons.injEq] at h
    obtain ⟨rfl, rfl⟩ := h
    rw [List.length_cons, Nat.add_sub_cancel, closerFrom_append, Text.width_cons, Nat.add_assoc,
      Option.map_map]
    rfl

/-! ### The search for the end of an expression -/

/-- **A search for a closing delimiter is sound** if what it finds is inside the text and a
closing delimiter stands there. -/
def CloserSearch.Sound (find : CloserSearch) : Prop :=
  ∀ closer literals host offset t n, find closer literals host offset t = some n →
    n < t.length ∧ closer <+: t.drop n

/-- The loop stops only where a closing delimiter begins. This does not depend on how far a
skipped literal reaches: the loop goes through every character of the text. -/
theorem closerFrom_sound {skip n : Nat}
    (h : closerFrom scan closer literals host skip depth offset t = some n) :
    n < t.length ∧ closer <+: t.drop n := by
  induction t generalizing skip depth offset n with
  | nil => cases skip <;> cases h
  | cons c t ih =>
    have hstep {skip depth offset : Nat}
        (h : (closerFrom scan closer literals host skip depth offset t).map (· + 1) = some n) :
        n < (c :: t).length ∧ closer <+: (c :: t).drop n := by
      obtain ⟨m, hm, rfl⟩ := Option.map_eq_some_iff.mp h
      obtain ⟨hlt, hbegins⟩ := ih hm
      exact ⟨Nat.succ_lt_succ hlt, hbegins⟩
    cases skip with
    | succ skip => exact hstep h
    | zero =>
      rw [closerFrom.eq_def] at h
      dsimp only at h
      split at h
      next hclose =>
        split at h
        · cases h
          exact ⟨Nat.succ_pos _, List.isPrefixOf_iff_prefix.mp hclose⟩
        · exact hstep h
      next =>
        split at h
        · split at h
          · exact hstep h
          · cases h
        · exact hstep h

theorem sound_findCloser (budget : Nat) : CloserSearch.Sound (findCloser budget) :=
  fun _ _ _ _ _ _ h => closerFrom_sound h

end Closer

/-! ### Opening a zone -/

/-- A zone of a form, with the text that follows the zone: its delimiters are those of the
form, and a sigil takes all of the label after it. -/
def FitsForm (z : Zone) (rest : Text) : Interpolation → Prop
  | .braced opener closer g => z.opener = opener ∧ z.closer = closer ∧ z.grammar = g
  | .sigil mark g =>
    z.opener = [mark] ∧ z.closer = [] ∧ z.grammar = g ∧ z.body ≠ [] ∧
      z.body.length = labelLength (z.body ++ rest)

theorem FitsForm.opener_eq {z : Zone} {rest : Text} {form : Interpolation}
    (h : FitsForm z rest form) : z.opener = form.opener := by
  cases form <;> exact h.1

theorem FitsForm.grammar_eq {z : Zone} {rest : Text} {form : Interpolation}
    (h : FitsForm z rest form) : z.grammar = form.grammar := by
  cases form
  · exact h.2.2
  · exact h.2.2.1

theorem labelLength_le (t : Text) : labelLength t ≤ t.length := by
  cases t with
  | nil => exact Nat.le_refl 0
  | cons c t =>
    rw [labelLength]
    split
    · rw [Nat.add_comm]
      exact Nat.succ_le_succ (List.takeWhile_sublist _).length_le
    · exact Nat.zero_le _

/-- What an opening delimiter at a place says about the text there, given the forms it may
be of. A zone stands where it says and is of one of the forms; an opening delimiter that is
kept as text stands there too. -/
def Opening.Stands (search : Option CloserSearch) (offset : Nat) (t : Text)
    (forms : List Interpolation) : Opening → Prop
  | .zone z => search.isSome ∧ z.start = offset ∧
      ∃ rest, t = z.text ++ rest ∧ ∃ form ∈ forms, FitsForm z rest form
  | .unmatched opener => search.isSome ∧ opener <+: t ∧ ∃ form ∈ forms, form.opener = opener
  | .tooDeep opener => search = none ∧ opener <+: t ∧ ∃ form ∈ forms, form.opener = opener

theorem Opening.Stands.cons {o : Opening} {form : Interpolation} {forms : List Interpolation}
    (h : o.Stands search offset t forms) : o.Stands search offset t (form :: forms) := by
  cases o with
  | zone z =>
    obtain ⟨hsome, hstart, rest, ht, f, hf, hfits⟩ := h
    exact ⟨hsome, hstart, rest, ht, f, List.mem_cons_of_mem _ hf, hfits⟩
  | unmatched opener =>
    obtain ⟨hsome, hbegins, f, hf, heq⟩ := h
    exact ⟨hsome, hbegins, f, List.mem_cons_of_mem _ hf, heq⟩
  | tooDeep opener =>
    obtain ⟨hnone, hbegins, f, hf, heq⟩ := h
    exact ⟨hnone, hbegins, f, List.mem_cons_of_mem _ hf, heq⟩

/-- **What opens at a place stands there.** -/
theorem stands_of_opening? {forms : List Interpolation} {o : Opening}
    (hsearch : ∀ find ∈ search, CloserSearch.Sound find)
    (h : opening? search host offset t forms = some o) : o.Stands search offset t forms := by
  induction forms with
  | nil => cases h
  | cons form forms ih =>
    cases form with
    | braced opener closer g =>
      rw [opening?.eq_def] at h
      dsimp only at h
      split at h
      next hopen =>
        obtain ⟨rest, rfl⟩ := List.isPrefixOf_iff_prefix.mp hopen
        cases search with
        | none =>
          cases h
          exact ⟨rfl, List.prefix_append _ _, _, List.mem_cons_self, rfl⟩
        | some find =>
          simp only [List.drop_left] at h
          split at h
          next n hn =>
            cases h
            obtain ⟨-, after, hafter⟩ := hsearch find rfl _ _ _ _ _ _ hn
            refine ⟨rfl, rfl, after, ?_, _, List.mem_cons_self, rfl, rfl, rfl⟩
            simp only [Zone.text, List.append_assoc]
            rw [hafter, List.take_append_drop]
          next =>
            cases h
            exact ⟨rfl, List.prefix_append _ _, _, List.mem_cons_self, rfl⟩
      next => exact (ih h).cons
    | sigil mark g =>
      cases t with
      | nil => cases h
      | cons c t =>
        rw [opening?.eq_def] at h
        dsimp only at h
        split at h
        next hmark =>
          obtain ⟨rfl, hlabel⟩ : c = mark ∧ labelLength t ≠ 0 := by simpa using hmark
          cases search with
          | none =>
            cases h
            exact ⟨rfl, List.prefix_append [c] t, _, List.mem_cons_self, rfl⟩
          | some find =>
            cases h
            have hlength := List.length_take_of_le (labelLength_le t)
            refine ⟨rfl, rfl, t.drop (labelLength t), by simp [Zone.text], _, List.mem_cons_self,
              rfl, rfl, rfl, ?_, ?_⟩
            · intro hnil
              exact hlabel (hlength.symm.trans (congrArg List.length hnil))
            · rw [List.take_append_drop]
              exact hlength
        next => exact (ih h).cons

/-! ### Segments -/

/-- A stretch of a body that is read in one go. -/
inductive Segment where
  /-- The escape character, with the character after it if there is one. -/
  | escaped (text : Text)
  | zone (z : Zone)
  /-- An opening delimiter without its closing one. -/
  | unmatched (opener : Text)
  /-- An opening delimiter beyond the budget. -/
  | tooDeep (opener : Text)
  | plain (c : Char)

namespace Segment

/-- The segment that an opening delimiter makes. -/
def ofOpening : Opening → Segment
  | .zone z => zone z
  | .unmatched opener => unmatched opener
  | .tooDeep opener => tooDeep opener

/-- A segment as it stands in the text. -/
def text : Segment → Text
  | .escaped text => text
  | .zone z => z.text
  | .unmatched opener => opener
  | .tooDeep opener => opener
  | .plain c => [c]

/-- The zone that a segment is, if it is one. -/
def zones : Segment → List Zone
  | .zone z => [z]
  | _ => []

/-- What a segment at an offset reports. -/
def diagnostics (host : Host) (offset : Nat) : Segment → List Diagnostic
  | .unmatched opener => [unmatchedDiagnostic host offset opener]
  | .tooDeep opener => [tooDeepDiagnostic offset opener]
  | _ => []

/-- Whether there are no zones any more after a segment. -/
def plainAfter (plain : Bool) : Segment → Bool
  | .unmatched _ => true
  | _ => plain

end Segment

/-- A scan with a segment in front. -/
def BodyScan.after (host : Host) (offset : Nat) (seg : Segment) (s : BodyScan) : BodyScan where
  length := s.length + seg.text.length
  closed := s.closed
  zones := seg.zones ++ s.zones
  diagnostics := seg.diagnostics host offset ++ s.diagnostics

/-- The segment at the start of a text. There is none where the body ends: at the end of
the text, at the closing delimiter, and at a line feed the literal cannot hold. -/
def firstSegment? (search : Option CloserSearch) (host : Host) (plain : Bool) (offset : Nat) :
    Text → Option Segment
  | [] => none
  | c :: t =>
    if (host.closingLength? (c :: t)).isSome then none
    else if host.escape = some c then some (.escaped (c :: t.take 1))
    else if c = '\n' && !host.multiline then none
    else
      match if plain then none else opening? search host offset (c :: t) host.forms with
      | none => some (.plain c)
      | some o => some (.ofOpening o)

/-- The scan of a body that ends at the start of a text. -/
def bodyEnd (host : Host) : Text → BodyScan
  | [] => {}
  | c :: t =>
    match host.closingLength? (c :: t) with
    | some n => { length := n, closed := true }
    | none => {}

/-- Where the body ends its scan ends. -/
theorem scanFrom_eq_bodyEnd (h : firstSegment? search host plain offset t = none) :
    scanFrom search host 0 plain offset t = bodyEnd host t := by
  cases t with
  | nil => rfl
  | cons c t =>
    rw [firstSegment?] at h
    rw [scanFrom, bodyEnd]
    cases hclose : host.closingLength? (c :: t) with
    | some n => rfl
    | none =>
      rw [hclose, if_neg (by simp)] at h
      dsimp only
      split at h
      · cases h
      next hescape =>
      split at h
      next hfeed => rw [if_neg hescape, if_pos hfeed]
      next =>
      split at h <;> cases h

/-- The segment of an opening delimiter is a nonempty piece at the start of the text. -/
theorem Opening.Stands.exists_rest {o : Opening} {forms : List Interpolation}
    (hforms : ∀ form ∈ forms, form.opener ≠ []) (h : o.Stands search offset t forms) :
    ∃ rest, t = (Segment.ofOpening o).text ++ rest ∧ (Segment.ofOpening o).text ≠ [] := by
  cases o with
  | zone z =>
    obtain ⟨-, -, rest, ht, form, hform, hfits⟩ := h
    have hopener : z.opener ≠ [] := hfits.opener_eq ▸ hforms form hform
    exact ⟨rest, ht, by simp [Segment.ofOpening, Segment.text, Zone.text, hopener]⟩
  | unmatched opener =>
    obtain ⟨-, ⟨rest, ht⟩, form, hform, rfl⟩ := h
    exact ⟨rest, ht.symm, hforms form hform⟩
  | tooDeep opener =>
    obtain ⟨-, ⟨rest, ht⟩, form, hform, rfl⟩ := h
    exact ⟨rest, ht.symm, hforms form hform⟩

/-- What opens at a place is read in one go, and the scan goes on behind it. -/
theorem scanFrom_eq_after_ofOpening {o : Opening} {rest : Text}
    (hclose : host.closingLength? (c :: t) = none) (hescape : ¬host.escape = some c)
    (hfeed : ¬(c = '\n' && !host.multiline) = true)
    (ho : (if plain then none else opening? search host offset (c :: t) host.forms) = some o)
    (ht : c :: t = (Segment.ofOpening o).text ++ rest) (hne : (Segment.ofOpening o).text ≠ []) :
    scanFrom search host 0 plain offset (c :: t) =
      (scanFrom search host 0 ((Segment.ofOpening o).plainAfter plain)
        (offset + (Segment.ofOpening o).text.width) rest).after host offset
          (Segment.ofOpening o) := by
  rw [scanFrom, hclose]
  dsimp only
  rw [if_neg hescape, if_neg hfeed, ho]
  cases o with
  | zone z =>
    dsimp only
    rw [← Zone.length_text]
    exact congrArg (BodyScan.addZone · z) (scanFrom_pass ht hne)
  | unmatched opener =>
    exact congrArg (BodyScan.addDiagnostic · (unmatchedDiagnostic host offset opener))
      (scanFrom_pass ht hne)
  | tooDeep opener =>
    exact congrArg (BodyScan.addDiagnostic · (tooDeepDiagnostic offset opener))
      (scanFrom_pass ht hne)

/-- The escape character is read with the character after it, if there is one. -/
theorem scanFrom_eq_after_escaped (hclose : host.closingLength? (c :: t) = none)
    (hescape : host.escape = some c) :
    scanFrom search host 0 plain offset (c :: t) =
      (scanFrom search host 0 plain (offset + Text.width (c :: t.take 1)) (t.drop 1)).after host
        offset (.escaped (c :: t.take 1)) := by
  rw [scanFrom, hclose]
  dsimp only
  rw [if_pos hescape]
  cases t with
  | nil => simp [BodyScan.after, BodyScan.later, Segment.text, Segment.zones, Segment.diagnostics]
  | cons d t => exact scanFrom_pass (p := [c, d]) rfl (List.cons_ne_nil _ _)

/-- **A body is its first segment and the rest.** -/
theorem exists_scanFrom_eq_after {seg : Segment}
    (hforms : ∀ form ∈ host.forms, form.opener ≠ [])
    (hsearch : ∀ find ∈ search, CloserSearch.Sound find)
    (h : firstSegment? search host plain offset t = some seg) :
    ∃ rest, t = seg.text ++ rest ∧ seg.text ≠ [] ∧
      scanFrom search host 0 plain offset t =
        (scanFrom search host 0 (seg.plainAfter plain) (offset + seg.text.width) rest).after host
          offset seg := by
  cases t with
  | nil => cases h
  | cons c t =>
    rw [firstSegment?] at h
    split at h
    · cases h
    next hclose =>
    have hclose : host.closingLength? (c :: t) = none := by simpa using hclose
    split at h
    next hescape =>
      cases h
      have htext : c :: t = (c :: t.take 1) ++ t.drop 1 := by
        rw [List.cons_append, List.take_append_drop]
      exact ⟨t.drop 1, htext, List.cons_ne_nil _ _, scanFrom_eq_after_escaped hclose hescape⟩
    next hescape =>
    split at h
    · cases h
    next hfeed =>
    split at h
    next hnone =>
      cases h
      refine ⟨t, rfl, List.cons_ne_nil c [], ?_⟩
      rw [scanFrom, hclose]
      dsimp only
      rw [if_neg hescape, if_neg hfeed, hnone]
      rfl
    next o ho =>
      cases h
      -- The flag is down, or nothing would have opened.
      have hstands : o.Stands search offset (c :: t) host.forms := by
        cases plain
        · exact stands_of_opening? hsearch ho
        · cases ho
      obtain ⟨rest, ht, hne⟩ := hstands.exists_rest hforms
      exact ⟨rest, ht, hne, scanFrom_eq_after_ofOpening hclose hescape hfeed ho ht hne⟩

/-- **Induction along the segments of a body.** -/
theorem scanFrom_induction {motive : Bool → Nat → Text → BodyScan → Prop}
    (hforms : ∀ form ∈ host.forms, form.opener ≠ [])
    (hsearch : ∀ find ∈ search, CloserSearch.Sound find)
    (stop : ∀ plain offset t, firstSegment? search host plain offset t = none →
      motive plain offset t (bodyEnd host t))
    (segment : ∀ plain offset seg rest s,
      firstSegment? search host plain offset (seg.text ++ rest) = some seg →
      motive (seg.plainAfter plain) (offset + seg.text.width) rest s →
      motive plain offset (seg.text ++ rest) (s.after host offset seg))
    (plain : Bool) (offset : Nat) (t : Text) :
    motive plain offset t (scanFrom search host 0 plain offset t) := by
  -- The induction is on the length of the text: a segment is not empty.
  induction hn : t.length using Nat.strongRecOn generalizing plain offset t with
  | ind n ih =>
    cases hseg : firstSegment? search host plain offset t with
    | none =>
      rw [scanFrom_eq_bodyEnd hseg]
      exact stop plain offset t hseg
    | some seg =>
      obtain ⟨rest, rfl, hne, hscan⟩ := exists_scanFrom_eq_after hforms hsearch hseg
      have hlt : rest.length < n := by
        have hpos : 0 < seg.text.length := List.length_pos_iff.mpr hne
        rw [List.length_append] at hn
        omega
      rw [hscan]
      exact segment plain offset seg rest _ hseg (ih rest.length hlt _ _ rest rfl)

end Literal

end Polylex
