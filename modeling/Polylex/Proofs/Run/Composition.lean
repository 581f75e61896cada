import Mathlib
import Polylex.Proofs.Locality
import Polylex.Proofs.Run.Replay
import Polylex.Proofs.Template.Language

/-!
# Embedded expressions are runs of their own

A run and the runs of the expressions inside its literals share nothing but the text. The
tokens of a run are those of its replay (`Polylex.Run.Replay`), and below a token with zones
there stands, for every zone, what a fresh session returns for the text of the expression
alone (`Polylex.Session.alone`): a session that starts at depth zero with a root of its own,
and with a limit that is lowered by the depth of the run and by one more for the zone.

So the budget that is handed down, the offset that is carried along and the regions that are
opened inside an expression amount to the same as starting over
(`Polylex.Session.runRange_composes`).
-/

namespace Polylex

open Token Literal

namespace Session

/-- **The run of an expression on its own**: a session that has reported nothing yet runs the
text of the expression from depth zero, with one level less than is left at the depth of the
literal. Without a grammar of its own the expression is in the grammar of the literal. -/
def alone (s : Session) (t : Text) (host : Grammar) (depth : Nat) (z : Zone) :
    Except TokenizeError (List Token) × Session :=
  let fresh : Session :=
    { grammars := s.grammars
      options :=
        { s.options with maxInterpolationDepth := s.options.maxInterpolationDepth - (depth + 1) } }
  let body := t.slice z.bodySpan
  match z.grammar with
  | none => fresh.runRange body host ⟨0, body.width⟩ 0
  | some id => fresh.run body id

/-- A token of a run at some depth is composed of a step of the replay and the runs of the
expressions on their own. -/
structure Composed (s : Session) (t : Text) (depth : Nat) (step : Run.Step) (token : Token) :
    Prop where
  kind_eq : token.kind = step.raw.kind
  span_eq : token.span = step.raw.span
  isLeaf : step.raw.zones = [] → token.children = []
  zones : ∀ z ∈ step.raw.zones, ∃ inner,
    (s.alone t step.stack.current depth z).1 = .ok inner ∧
      token.children.filter (z.bodySpan.encloses ·.span) = shiftForest z.bodyStart inner
  acted_le : step.acted.length ≤ 1

/-- What a step reports: what the scanner reports about the literal, what the expressions
report on their own, in the order of the zones, and what the action reports. -/
def composedReports (s : Session) (t : Text) (depth : Nat) (step : Run.Step) : List Diagnostic :=
  step.found ++
    step.raw.zones.flatMap (fun z =>
      (s.alone t step.stack.current depth z).2.diagnostics.map (·.shift z.bodyStart)) ++
    step.acted

/-- **A run over a span is compositional**: there is a replay of the span such that the run
returns a token for every step, composed of it, reports step by step, and closes the regions
that are open at the end. -/
def Composes (s : Session) (t : Text) (root : Grammar) (span : Span) (depth : Nat) : Prop :=
  ∃ (steps : List Run.Step) (final : RegionStack) (tree : Run.Step → Token),
    Run.Replay s.grammars (s.options.maxInterpolationDepth - depth) t span.stop
      (RegionStack.start root span.start s.options.maxRegionDepth) span.start steps final ∧
    s.runRange t root span depth =
      (.ok (steps.map tree),
        { s with
          diagnostics := s.diagnostics ++ (steps.flatMap (s.composedReports t depth) ++
            (final.closeAll span.stop).1.map (Run.unclosedDiagnostic span.stop)) }) ∧
    ∀ step ∈ steps, s.Composed t depth step (tree step)

end Session

namespace Run

variable {set : GrammarSet} {limit budget : Nat} {t m : Text} {step : Step} {z : Zone}

theorem forest_nil (g : Grammar) : forest set limit budget false g 0 [] = ⟨[], .ok []⟩ := by
  rw [forest_eq]
  rfl

/-- **The tokens of an expression are those of its text alone**, moved to its place. -/
theorem Step.Placed.expression_eq_shift (limit : Nat) (h : step.Placed set budget t m)
    (hz : z ∈ step.raw.zones) {g : Grammar}
    (hg : z.grammar = none ∧ g = step.stack.current ∨
      ∃ id, z.grammar = some id ∧ set.get? id = some g) :
    step.expression set (below set limit budget) z =
      (forest set limit (budget - 1) false g 0 z.body).shift z.bodyStart
        (shiftForest z.bodyStart) := by
  by_cases hne : z.body = []
  -- An empty expression is not run at all, but a run of it would return nothing either.
  · rw [hne, forest_nil, Step.expression, expressionTokens, hne]
    rfl
  · obtain ⟨budget, rfl⟩ := Nat.exists_eq_add_one.mpr (h.budget_pos z hz)
    rw [expression_eq hne hg, below, ← forest_shift, Nat.zero_add, Nat.add_sub_cancel]

/-- The span of an expression holds its text. -/
theorem Step.Placed.slice_bodySpan (h : step.Placed set budget t m) (hz : z ∈ step.raw.zones) :
    t.slice z.bodySpan = z.body :=
  (at_bodyStart (h.zones.at_of_mem h.stands hz)).slice_eq

end Run

namespace Session

variable {s : Session} {t m : Text} {root : Grammar} {span : Span} {depth : Nat}
variable {step : Run.Step} {z : Zone}

/-- The run of an expression on its own is a run with one level less. -/
theorem alone_eq {budget : Nat} (hbudget : budget = s.options.maxInterpolationDepth - depth)
    (h : step.Placed s.grammars budget t m) (hz : z ∈ step.raw.zones) {g : Grammar}
    (hg : z.grammar = none ∧ g = step.stack.current ∨
      ∃ id, z.grammar = some id ∧ s.grammars.get? id = some g) :
    let trace := Run.forest s.grammars s.options.maxRegionDepth (budget - 1) false g 0 z.body
    (s.alone t step.stack.current depth z).1 = trace.outcome ∧
      (s.alone t step.stack.current depth z).2.diagnostics = trace.diagnostics := by
  -- The level is charged once: by the limit of the fresh session, which starts at depth zero.
  have hless : s.options.maxInterpolationDepth - (depth + 1) = budget - 1 := by omega
  rw [alone, h.slice_bodySpan hz]
  rcases hg with ⟨hnone, rfl⟩ | ⟨id, hid, hget⟩
  · simp [hnone, runRange_eq, trace, isCancelled, Text.slice_all, hless]
  · simp [hid, run, grammar, hget, runRange_eq, trace, isCancelled, Text.slice_all, hless]

/-- The tree of a step is composed, whatever the zones of the token. -/
theorem composed_token (hs : s.grammars.Valid) {budget : Nat}
    (hbudget : budget = s.options.maxInterpolationDepth - depth)
    (h : step.Placed s.grammars budget t m) :
    s.Composed t depth step
      (step.token s.grammars (Run.below s.grammars s.options.maxRegionDepth budget)) := by
  have he : 0 < budget →
      (Run.below s.grammars s.options.maxRegionDepth budget).Tiling s.grammars :=
    Run.tiling_below hs s.options.maxRegionDepth
  refine ⟨rfl, rfl, ?_, ?_, h.acted_le⟩
  · intro hnil
    rw [Run.Step.token, hnil]
    rfl
  · intro z hz
    obtain ⟨g, hmem, hg⟩ := h.exists_grammar hz
    obtain ⟨inner, hinner, -⟩ :=
      Run.tiling_forest hs s.options.maxRegionDepth (budget - 1) g hmem 0 z.body
    have hshift := h.expression_eq_shift s.options.maxRegionDepth hz hg
    refine ⟨inner, (alone_eq hbudget h hz hg).1.trans hinner, ?_⟩
    -- The children of the token are the layout of what the expressions turn into.
    have hempty : ¬step.raw.zones.isEmpty = true := by
      rw [List.isEmpty_iff]
      rintro hnil
      rw [hnil] at hz
      cases hz
    have htiles : ∀ z ∈ step.raw.zones, Tiles z.bodyStart z.body
        (step.expression s.grammars
          (Run.below s.grammars s.options.maxRegionDepth budget) z).get := by
      intro z hz
      obtain ⟨tokens, hok, htiles⟩ := h.expression_tiles he hz
      rwa [Traced.get_eq_of_outcome hok]
    rw [Run.Step.token, h.span_eq, if_neg hempty]
    refine (Run.filter_interleave h.zones htiles hz).trans ?_
    refine Traced.get_eq_of_outcome ?_
    rw [hshift, Traced.shift, hinner]
    rfl

/-- A step reports what its parts report. -/
theorem composedReports_eq (s : Session) {budget : Nat}
    (hbudget : budget = s.options.maxInterpolationDepth - depth)
    (h : step.Placed s.grammars budget t m) :
    step.reports s.grammars (Run.below s.grammars s.options.maxRegionDepth budget) =
      s.composedReports t depth step := by
  have hzones : step.raw.zones.flatMap (fun z => (step.expression s.grammars
      (Run.below s.grammars s.options.maxRegionDepth budget) z).diagnostics) =
      step.raw.zones.flatMap (fun z =>
        (s.alone t step.stack.current depth z).2.diagnostics.map (·.shift z.bodyStart)) := by
    refine List.flatMap_congr fun z hz => ?_
    obtain ⟨g, -, hg⟩ := h.exists_grammar hz
    rw [h.expression_eq_shift s.options.maxRegionDepth hz hg, (alone_eq hbudget h hz hg).2]
    rfl
  rw [Run.Step.reports, composedReports, hzones]

/-- **Runs are compositional.** With a set that has been built, every run over a range of a
text that is rooted at a grammar of the set and is not cancelled is compositional, at any
depth. -/
theorem runRange_composes {grammars : List Grammar}
    (hbuild : GrammarSet.build grammars = .ok s.grammars) (hroot : root ∈ s.grammars.grammars)
    (hspan : t.IsRange span) (hcancel : depth = 0 → s.isCancelled = false) :
    s.Composes t root span depth := by
  have hs := GrammarSet.valid_of_build hbuild
  obtain ⟨hat, hstop⟩ := hspan.at
  generalize hbudget : s.options.maxInterpolationDepth - depth = budget
  have he : 0 < budget →
      (Run.below s.grammars s.options.maxRegionDepth budget).Tiling s.grammars :=
    Run.tiling_below hs s.options.maxRegionDepth
  obtain ⟨steps, final, hreplay, hsteps, hrun⟩ := Run.exists_replay budget hs
    (RegionStack.within_start span.start s.options.maxRegionDepth hroot) hat
  obtain ⟨hforest, -⟩ := hrun _ he
  rw [← hstop] at hreplay hforest
  have hreports : steps.flatMap (·.reports s.grammars
      (Run.below s.grammars s.options.maxRegionDepth budget)) =
      steps.flatMap (s.composedReports t depth) := by
    refine List.flatMap_congr fun step hstep => ?_
    obtain ⟨m, hplaced⟩ := hsteps step hstep
    exact composedReports_eq s hbudget.symm hplaced
  -- Only a run at depth zero can be cancelled.
  have hcancelled : (depth == 0 && s.isCancelled) = false := by
    by_cases hdepth : depth = 0
    · rw [hcancel hdepth, Bool.and_false]
    · rw [beq_false_of_ne hdepth, Bool.false_and]
  refine ⟨steps, final,
    fun step => step.token s.grammars (Run.below s.grammars s.options.maxRegionDepth budget),
    hbudget ▸ hreplay, ?_, ?_⟩
  · rw [runRange_eq, trace, hcancelled, hbudget, Run.forest_eq, hforest, hreports]
  · intro step hstep
    obtain ⟨m, hplaced⟩ := hsteps step hstep
    exact composed_token hs hbudget.symm hplaced

/-- The case of a template in the expression of a template, behind a character that is not in the
range, with a limit of one level. On its own the inner template has the limit zero, so its
expression is not run and that is reported, at the start of a text; in the run the token and the
report stand where the expression stands. -/
theorem runRange_composes_template :
    let root := Template.grammar '"' "t" false
    let s : Session := { grammars := ⟨[root]⟩, options := { maxInterpolationDepth := 1 } }
    let t : Text := ['x', '"', '$', '\x7b', '"', '$', '\x7b', 'é', '\x7d', '"', '\x7d', '"']
    let z : Zone := ⟨2, ['$', '\x7b'], ['"', '$', '\x7b', 'é', '\x7d', '"'], ['\x7d'], none⟩
    GrammarSet.build [root] = .ok s.grammars ∧ s.Composes t root ⟨1, 13⟩ 0 ∧
      (s.runRange t root ⟨1, 13⟩ 0).1 =
        .ok [.node .string ⟨1, 13⟩ [.leaf .string ⟨1, 2⟩, .leaf .interpolationMarker ⟨2, 4⟩,
          .leaf .string ⟨4, 11⟩, .leaf .interpolationMarker ⟨11, 12⟩, .leaf .string ⟨12, 13⟩]] ∧
      (s.runRange t root ⟨1, 13⟩ 0).2.diagnostics.map (fun d => (d.code, d.span)) =
        [(.nestingLimit, ⟨5, 7⟩)] ∧
      (s.alone t root 0 z).1 = .ok [.leaf .string ⟨0, 7⟩] ∧
      (s.alone t root 0 z).2.diagnostics.map (fun d => (d.code, d.span)) =
        [(.nestingLimit, ⟨1, 3⟩)] := by
  intro root s t z
  have hbuild : GrammarSet.build [root] = .ok s.grammars := rfl
  have hspan : t.IsRange ⟨1, 13⟩ := Text.isRange_iff_exists.mpr ⟨['x'], t.drop 1, [], rfl, rfl⟩
  refine ⟨hbuild, runRange_composes hbuild List.mem_cons_self hspan fun _ => rfl, ?_, ?_, ?_, ?_⟩
  · cbv
  · cbv
  · cbv
  · cbv

end Session

end Polylex
