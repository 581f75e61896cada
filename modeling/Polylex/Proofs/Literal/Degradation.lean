import Polylex.Proofs.Literal.Division
import Polylex.Proofs.Literal.Exhausted

/-!
# What the scan of a body reports

The scan of a body never fails. What it cannot make a zone of it keeps as text, and it reports
the opening delimiter. There are two reasons for this and they do not mix.

* **The budget is used up.** Then every opening delimiter is kept, and every one is reported.
* **A closing delimiter is missing.** Then the opening delimiter is reported, and the rest of the
  literal is text: nothing opens behind it, and all zones are in front of it.

Both are read off the segments into which a body divides
(`Polylex.Literal.Segment.openers`, `Polylex.Literal.Divides.reports_eq_of_zero`,
`Polylex.Literal.Divides.reports_of_pos`). In looking for a closing delimiter the scan scans
the literals in the expression as well, and those scans report on their own. Of this nothing
remains: the scan of a body is the same with any scan of the literals in its expressions that
comes to the same ends (`Polylex.Literal.scanSkipping_congr`).
-/

namespace Polylex.Literal

variable {host : Host} {plain : Bool} {offset budget : Nat} {t rest : Text}
variable {seg : Segment} {segs : List Segment}

/-! ### Opening delimiters -/

/-- The opening delimiter with which a segment begins, if a form opens there. -/
def Segment.opener? : Segment → Option Text
  | .zone z => some z.opener
  | .unmatched opener => some opener
  | .tooDeep opener => some opener
  | _ => none

/-- The opening delimiters at which segments begin, each with its offset. The first segment is at
an offset. -/
def Segment.openers : (offset : Nat) → List Segment → List (Nat × Text)
  | _, [] => []
  | offset, seg :: segs =>
    seg.opener?.toList.map (offset, ·) ++ openers (offset + seg.text.width) segs

/-- The span of an opening delimiter at an offset. -/
def openerSpan (o : Nat × Text) : Span := ⟨o.1, o.1 + o.2.width⟩

/-- The opening delimiter of a segment is no longer than the segment. -/
theorem Segment.width_opener?_le {opener : Text} (h : seg.opener? = some opener) :
    opener.width ≤ seg.text.width := by
  rcases seg with text | z | opener' | opener' | c <;> cases h
  · rw [Segment.text, Zone.text, List.append_assoc, Text.width_append]
    exact Nat.le_add_right _ _
  · exact Nat.le_refl _
  · exact Nat.le_refl _

theorem Segment.le_of_mem_openers {o : Nat × Text} (h : o ∈ Segment.openers offset segs) :
    offset ≤ o.1 := by
  induction segs generalizing offset with
  | nil => cases h
  | cons seg segs ih =>
    rcases List.mem_append.mp h with h | h
    · obtain ⟨opener, -, rfl⟩ := List.mem_map.mp h
      exact Nat.le_refl _
    · exact Nat.le_trans (Nat.le_add_right _ _) (ih h)

/-- **The opening delimiters of segments follow each other.** -/
theorem Segment.pairwise_openers (offset : Nat) (segs : List Segment) :
    (Segment.openers offset segs).Pairwise fun o o' =>
      (openerSpan o).stop ≤ (openerSpan o').start := by
  induction segs generalizing offset with
  | nil => exact .nil
  | cons seg segs ih =>
    rw [Segment.openers]
    rcases hopener : seg.opener? with _ | opener
    · exact ih _
    · refine .cons (fun o ho => ?_) (ih _)
      have hwidth : opener.width ≤ seg.text.width := Segment.width_opener?_le hopener
      have hle : offset + seg.text.width ≤ o.1 := Segment.le_of_mem_openers ho
      exact Nat.le_trans (Nat.add_le_add_left hwidth offset) hle

/-! ### Without budget -/

/-- Without budget a segment is no zone, and reports its opening delimiter if it has one. -/
theorem Segment.Reads.of_zero {behind : Text} (h : seg.Reads host 0 plain offset behind) :
    seg.zones = [] ∧
      seg.diagnostics host offset =
        (seg.opener?.toList.map (offset, ·)).map fun o => tooDeepDiagnostic o.1 o.2 := by
  cases h with
  | zone _ _ room => exact absurd room (Nat.lt_irrefl 0)
  | unmatched _ _ room => exact absurd room (Nat.lt_irrefl 0)
  | _ => exact ⟨rfl, rfl⟩

/-- **Without budget every opening delimiter is reported**, and there are no zones. -/
theorem Divides.reports_eq_of_zero (h : Divides host 0 plain offset t segs rest) :
    segs.flatMap Segment.zones = [] ∧
      Segment.reports host offset segs =
        (Segment.openers offset segs).map fun o => tooDeepDiagnostic o.1 o.2 := by
  induction h with
  | done => exact ⟨rfl, rfl⟩
  | segment unclosed reads later ih =>
    obtain ⟨hzones, hreports⟩ := reads.of_zero
    obtain ⟨hzones', hreports'⟩ := ih
    rw [List.flatMap_cons, hzones, hzones', Segment.reports, hreports, hreports',
      Segment.openers, List.map_append]
    exact ⟨rfl, rfl⟩

/-! ### With budget -/

/-- Behind an unmatched opening delimiter nothing opens. -/
theorem Segment.Reads.opener?_eq_none {behind : Text}
    (h : seg.Reads host budget true offset behind) :
    seg.opener? = none ∧ seg.plainAfter true = true := by
  cases h with
  | zone _ looked => cases looked
  | unmatched _ looked => cases looked
  | tooDeep _ looked => cases looked
  | _ => exact ⟨rfl, rfl⟩

/-- Where nothing opens there is no zone and nothing to report. -/
theorem Segment.silent_of_opener?_eq_none (h : seg.opener? = none) :
    seg.zones = [] ∧ seg.diagnostics host offset = [] := by
  rcases seg with text | z | opener | opener | c
  case escaped => exact ⟨rfl, rfl⟩
  case plain => exact ⟨rfl, rfl⟩
  all_goals cases h

/-- Behind an unmatched opening delimiter there are no opening delimiters, no zones and no
reports. -/
theorem Divides.nothing_opens (h : Divides host budget true offset t segs rest) :
    Segment.openers offset segs = [] ∧ segs.flatMap Segment.zones = [] ∧
      Segment.reports host offset segs = [] := by
  generalize hplain : true = plain at h
  induction h with
  | done => exact ⟨rfl, rfl, rfl⟩
  | segment unclosed reads later ih =>
    subst hplain
    obtain ⟨hopener, hplain⟩ := reads.opener?_eq_none
    obtain ⟨hopeners, hzones, hreports⟩ := ih hplain.symm
    obtain ⟨hzones', hreports'⟩ := Segment.silent_of_opener?_eq_none hopener
    rw [Segment.openers, hopener, hopeners, List.flatMap_cons, hzones', hzones, Segment.reports,
      hreports', hreports]
    exact ⟨rfl, rfl, rfl⟩

/-- With budget, a segment that leaves the forms in place reports nothing, and if it is a zone it
is the whole zone. -/
theorem Segment.Reads.of_pos {behind : Text} (hbudget : 0 < budget)
    (h : seg.Reads host budget plain offset behind) :
    (∃ opener, seg = .unmatched opener) ∨
      seg.plainAfter plain = plain ∧ seg.diagnostics host offset = [] ∧
        ∀ z ∈ seg.zones, z.stop = offset + seg.text.width := by
  cases h with
  | unmatched => exact Or.inl ⟨_, rfl⟩
  | tooDeep _ _ spent => exact absurd spent (Nat.pos_iff_ne_zero.mp hbudget)
  | @zone z form behind bare looked room opens start fits =>
    refine Or.inr ⟨rfl, rfl, fun z' hz' => ?_⟩
    obtain rfl := List.mem_singleton.mp hz'
    rw [← start]
    exact z'.start_add_width_text.symm
  | _ => exact Or.inr ⟨rfl, rfl, List.forall_mem_nil _⟩

/-- **With budget at most one opening delimiter is reported**, as unmatched. All zones are in front
of it, and no other opening delimiter is behind it. -/
theorem Divides.reports_of_pos (hbudget : 0 < budget)
    (h : Divides host budget plain offset t segs rest) :
    Segment.reports host offset segs = [] ∨
      ∃ o ∈ Segment.openers offset segs,
        Segment.reports host offset segs = [unmatchedDiagnostic host o.1 o.2] ∧
        (∀ z ∈ segs.flatMap Segment.zones, z.stop ≤ o.1) ∧
        ∀ o' ∈ Segment.openers offset segs, o'.1 ≤ o.1 := by
  induction h with
  | done => exact Or.inl rfl
  | @segment plain offset seg behind rest segs unclosed reads later ih =>
    rcases reads.of_pos hbudget with ⟨opener, rfl⟩ | ⟨hplain, hreports, hzones⟩
    · -- Behind an unmatched opening delimiter there is nothing.
      obtain ⟨hopeners, hzones, hreports⟩ := later.nothing_opens
      refine Or.inr ⟨(offset, opener), ?_, ?_, ?_, ?_⟩
      · exact List.mem_append_left _ (List.mem_singleton.mpr rfl)
      · rw [Segment.reports, hreports]
        rfl
      · rw [List.flatMap_cons, hzones]
        exact List.forall_mem_nil _
      · rw [Segment.openers, hopeners]
        intro o' ho'
        obtain rfl := List.mem_singleton.mp ho'
        exact Nat.le_refl _
    · rw [Segment.reports, hreports, List.nil_append]
      refine ih.imp_right ?_
      rintro ⟨o, ho, hreport, hbefore, hlast⟩
      have hle : offset + seg.text.width ≤ o.1 := Segment.le_of_mem_openers ho
      refine ⟨o, List.mem_append_right _ ho, hreport, ?_, ?_⟩
      · rw [List.flatMap_cons, List.forall_mem_append]
        exact ⟨fun z hz => hzones z hz ▸ hle, hbefore⟩
      · rw [Segment.openers, List.forall_mem_append]
        refine ⟨fun o' ho' => ?_, hlast⟩
        obtain ⟨opener, -, rfl⟩ := List.mem_map.mp ho'
        exact Nat.le_trans (Nat.le_add_right _ _) hle

/-! ### The literals that are skipped -/

/-- The scan of a body that scans the literals in its expressions in some way. -/
def scanSkipping (skipper : BodyScanner) : BodyScanner := fun host offset t =>
  scanFrom
    (some fun closer literals host offset t =>
      closerFrom skipper closer literals host 0 0 offset t)
    host 0 false offset t

/-- A body is scanned with the budget left for what is inside its expressions. -/
theorem scanBody_succ_eq_scanSkipping (budget : Nat) (offset : Nat) (t : Text) :
    scanBody (budget + 1) host offset t = scanSkipping (scanBody budget) host offset t := rfl

/-- **What the scans of skipped literals report is not used**, nor what zones they find: another
way of scanning them that comes to the same ends leads to the same scan. -/
theorem scanSkipping_congr {skipper skipper' : BodyScanner}
    (h : ∀ p : Place, (p.scan skipper').extent = (p.scan skipper).extent) (offset : Nat)
    (t : Text) : scanSkipping skipper' host offset t = scanSkipping skipper host offset t :=
  scanFrom_congr fun _ _ => closerFrom_congr fun p _ => h p

/-! ### The scan of a body -/

/-- **How the scan of a body degrades.** The scan follows a division of the whole body: it goes on
to the closing delimiter, to the end of the text, or to a line feed that the literal cannot hold,
and its zones and reports are those of the segments on the way.

* Without budget there are no zones; every opening delimiter is reported as nested too deeply,
  and nothing else is reported; what is reported follows each other in the text.
* With budget at most one opening delimiter is reported, as unmatched, and nothing else. All zones
  end in front of it, and no opening delimiter is behind it.
* What is reported in the literals that are skipped in looking for a closing delimiter makes no
  difference. -/
theorem scanBody_degrades (hforms : ∀ form ∈ host.forms, form.opener ≠ []) (budget offset : Nat)
    (t : Text) :
    ∃ segs rest closing,
      (scanBody budget host offset t).Follows host budget false offset t segs rest closing ∧
      (budget = 0 → (scanBody budget host offset t).zones = [] ∧
        (scanBody budget host offset t).diagnostics =
          (Segment.openers offset segs).map (fun o => tooDeepDiagnostic o.1 o.2) ∧
        ((scanBody budget host offset t).diagnostics.map (·.span)).Pairwise
          fun s s' => s.stop ≤ s'.start) ∧
      (0 < budget → (scanBody budget host offset t).diagnostics.length ≤ 1 ∧
        ∀ d ∈ (scanBody budget host offset t).diagnostics,
          ∃ o ∈ Segment.openers offset segs, d = unmatchedDiagnostic host o.1 o.2 ∧
            (∀ z ∈ (scanBody budget host offset t).zones, z.stop ≤ d.span.start) ∧
            ∀ o' ∈ Segment.openers offset segs, o'.1 ≤ d.span.start) ∧
      ∀ below skipper, budget = below + 1 →
        (∀ p : Place, (p.scan skipper).extent = (p.scan (scanBody below)).extent) →
        scanSkipping skipper host offset t = scanBody budget host offset t := by
  obtain ⟨segs, rest, closing, hfollows⟩ := exists_follows_scanBody hforms budget offset t
  have hdivides := hfollows.divides
  have hzones := hfollows.zones_eq
  have hreports := hfollows.diagnostics_eq
  refine ⟨segs, rest, closing, hfollows, ?_, fun hbudget => ?_, ?_⟩
  · rintro rfl
    obtain ⟨hnone, hopeners⟩ := hdivides.reports_eq_of_zero
    rw [hzones, hreports, hopeners]
    refine ⟨hnone, rfl, ?_⟩
    rw [List.map_map, List.pairwise_map]
    exact Segment.pairwise_openers offset segs
  · rw [hzones, hreports]
    rcases hdivides.reports_of_pos hbudget with hnil | ⟨o, ho, hone, hbefore, hlast⟩
    · rw [hnil]
      exact ⟨Nat.zero_le 1, List.forall_mem_nil _⟩
    · rw [hone]
      refine ⟨Nat.le_refl 1, fun d hd => ?_⟩
      obtain rfl := List.mem_singleton.mp hd
      exact ⟨o, ho, rfl, hbefore, hlast⟩
  · rintro below skipper rfl hskipper
    rw [scanBody_succ_eq_scanSkipping]
    exact scanSkipping_congr hskipper offset t

/-- The case of a literal with two opening delimiters, without budget and with some. In the
expression of the first one there is a literal with an opening delimiter of its own, which is too
deep; this is not reported. The second one is unmatched, as the literal behind it never ends. -/
theorem scanBody_degrades_nested :
    let spec : Delimited :=
      ⟨['"'], ['"'], some '\\', true, [.braced ['$', '\x7b'] ['\x7d'] none]⟩
    let host := Host.ofDelimited spec 0 [spec]
    let t : Text := ['$', '\x7b', '"', '$', '\x7b', '"', '\x7d', '$', '\x7b', '"']
    let t' : Text := ['$', '\x7b', 'a', '$', '\x7b', '"']
    (∀ form ∈ host.forms, form.opener ≠ []) ∧
    ((scanBody 1 host 1 t).zones.map (·.span),
        (scanBody 1 host 1 t).diagnostics.map fun d => (d.code, d.span)) =
      ([⟨1, 8⟩], [(.unmatchedInterpolationCloser, ⟨8, 10⟩)]) ∧
    (scanBody 0 host 1 t').diagnostics.map (fun d => (d.code, d.span)) =
      [(.nestingLimit, ⟨1, 3⟩), (.nestingLimit, ⟨4, 6⟩)] ∧
    (∃ segs rest closing, (scanBody 1 host 1 t).Follows host 1 false 1 t segs rest closing ∧
      ∀ d ∈ (scanBody 1 host 1 t).diagnostics,
        ∃ o ∈ Segment.openers 1 segs, d = unmatchedDiagnostic host o.1 o.2 ∧
          (∀ z ∈ (scanBody 1 host 1 t).zones, z.stop ≤ d.span.start) ∧
          ∀ o' ∈ Segment.openers 1 segs, o'.1 ≤ d.span.start) ∧
    ∃ segs rest closing, (scanBody 0 host 1 t').Follows host 0 false 1 t' segs rest closing ∧
      (scanBody 0 host 1 t').diagnostics =
        (Segment.openers 1 segs).map (fun o => tooDeepDiagnostic o.1 o.2) := by
  intro spec host t t'
  have hforms : ∀ form ∈ host.forms, form.opener ≠ [] := by decide
  obtain ⟨segs, rest, closing, hfollows, -, hbudget, -⟩ := scanBody_degrades hforms 1 1 t
  obtain ⟨segs', rest', closing', hfollows', hspent, -, -⟩ := scanBody_degrades hforms 0 1 t'
  exact ⟨hforms, by decide, by decide, ⟨segs, rest, closing, hfollows, (hbudget Nat.one_pos).2⟩,
    segs', rest', closing', hfollows', (hspent rfl).2.1⟩

end Polylex.Literal
