import Polylex.Proofs.FirstMatch
import Polylex.Proofs.Run.Splice

/-!
# A run, token by token

The loop over a text counts down the characters of the last token, carries the regions and
collects what is reported. Here it is taken apart. A *replay* (`Polylex.Run.Replay`) goes
through the text with the scanner alone: every step is the token that the scanner of the
grammar in force finds where the token before ended, and the action of that token leads to
the next regions. Nothing in a replay depends on what the expressions inside literals turn
into; that is what makes the level of a run separate from the levels below it.

In a valid set a text can always be replayed (`Polylex.Run.exists_replay`), and the loop
returns the tokens of the steps (`Polylex.Run.Step.token`) and reports step by step
(`Polylex.Run.Step.reports`), followed by the regions that are open at the end. What is used
about the expressions is only that their tokens tile them; by induction on the budget they do
(`Polylex.Run.tiling_forest`).
-/

namespace Polylex

/-! ### Regions of a set -/

/-- All open regions are of grammars of a set. -/
def RegionStack.Within (set : GrammarSet) (s : RegionStack) : Prop :=
  ∀ r ∈ s.root :: s.nested, r.grammar ∈ set.grammars

namespace RegionStack

variable {set : GrammarSet} {s s' : RegionStack} {g : Grammar} {offset : Nat}

theorem within_start (offset limit : Nat) (h : g ∈ set.grammars) : (start g offset limit).Within set := by
  intro r hr
  obtain rfl := List.mem_singleton.mp hr
  exact h

theorem Within.current_mem (h : s.Within set) : s.current ∈ set.grammars := by
  apply h
  rw [top]
  cases s.nested with
  | nil => exact List.mem_singleton.mpr rfl
  | cons r rest => exact List.mem_cons_of_mem _ List.mem_cons_self

theorem Within.push (h : s.Within set) (hg : g ∈ set.grammars) {opener : Span}
    (hpush : s.push g offset opener = .ok s') : s'.Within set := by
  rw [RegionStack.push] at hpush
  split at hpush
  · cases hpush
  split at hpush
  · cases hpush
  cases hpush
  obtain ⟨hroot, hnested⟩ := List.forall_mem_cons.mp h
  exact List.forall_mem_cons.mpr ⟨hroot, List.forall_mem_cons.mpr ⟨hg, hnested⟩⟩

end RegionStack

namespace Run

open Token Literal

variable {set : GrammarSet} {stack : RegionStack} {budget offset : Nat} {t m : Text}
variable {embedded : Embedded}

theorem within_leave (h : stack.Within set) : (leave stack offset).Within set := by
  obtain ⟨root, nested, limit⟩ := stack
  cases nested with
  | nil => exact h
  | cons r rest =>
    obtain ⟨hroot, hnested⟩ := List.forall_mem_cons.mp h
    exact List.forall_mem_cons.mpr ⟨hroot, (List.forall_mem_cons.mp hnested).2⟩

theorem lookup_eq {id : String} {g : Grammar} (h : set.get? id = some g) :
    lookup set id = .value g := by
  rw [lookup, h]

/-- **Entering a region of a known grammar never fails**: it is entered, or refused with one
report. -/
theorem exists_enter_eq (hstack : stack.Within set) {id : String} {opener : Span}
    (hid : ∃ g, set.get? id = some g) :
    ∃ acted next, enter set stack id opener = ⟨acted, .ok next⟩ ∧ acted.length ≤ 1 ∧
      next.Within set := by
  obtain ⟨g, hg⟩ := hid
  rw [enter, lookup_eq hg, Traced.value, Traced.bind_ok]
  cases hpush : stack.push g opener.stop opener with
  | ok next =>
    exact ⟨[], next, rfl, Nat.zero_le 1, hstack.push (GrammarSet.mem_of_get? hg) hpush⟩
  | error e =>
    cases e with
    | unbalanced depth => exact absurd hpush (stack.push_ne_unbalanced _ _ _ depth)
    | «recursive» id => exact ⟨_, stack, rfl, Nat.le_refl 1, hstack⟩
    | depthLimit limit => exact ⟨_, stack, rfl, Nat.le_refl 1, hstack⟩

/-- **The action of a rule never fails** if the grammar it names is known, and reports at
most once. -/
theorem exists_act_eq (token : Span) (hstack : stack.Within set) {action : Option RegionAction}
    (hknown : ∀ id, action.bind (·.target) = some id → ∃ g, set.get? id = some g) :
    ∃ acted next, act set stack token action = ⟨acted, .ok next⟩ ∧ acted.length ≤ 1 ∧
      next.Within set := by
  cases action with
  | none => exact ⟨[], stack, rfl, Nat.zero_le 1, hstack⟩
  | some action =>
    cases action with
    | enter id => exact exists_enter_eq hstack (hknown id rfl)
    | exit => exact ⟨[], _, rfl, Nat.zero_le 1, within_leave hstack⟩
    -- Leaving reports nothing, so a switch reports what entering reports.
    | switch id => exact exists_enter_eq (within_leave hstack) (hknown id rfl)

/-! ### The loop, one token at a time -/

theorem forestFrom_append (p r : Text) (offset : Nat) :
    forestFrom set budget embedded false p.length stack offset (p ++ r) =
      forestFrom set budget embedded false 0 stack (offset + p.width) r := by
  rw [forestFrom_skip, List.take_left, List.drop_left]

/-- **One turn of the loop**: the token at the start of the text, its tree, its action, and
the rest of the text. -/
theorem forestFrom_step {p r : Text} {found : Match} (hp : p ≠ [])
    (hfound : stack.current.firstMatch budget offset (p ++ r) = found)
    (hlength : p.length = found.length) :
    forestFrom set budget embedded false 0 stack offset (p ++ r) = (do
      Traced.report found.diagnostics
      let raw := RawToken.ofMatch found offset (p ++ r)
      let token ← splice set embedded stack.current raw
      let next ← act set stack raw.span raw.action
      let tokens ← forestFrom set budget embedded false 0 next (offset + p.width) r
      pure (token :: tokens)) := by
  cases p with
  | nil => exact absurd rfl hp
  | cons c p =>
    rw [List.cons_append] at hfound ⊢
    have hskip : found.length - 1 = p.length := by
      rw [← hlength, List.length_cons, Nat.add_sub_cancel]
    rw [forestFrom, hfound]
    dsimp only
    rw [hskip]
    simp only [forestFrom_append, Text.width_cons, Nat.add_assoc, Bool.false_eq_true, if_false]

/-! ### The expressions of zones -/

/-- The grammar that the expression of a zone is in, if its name is known. -/
theorem exists_zone_grammar {host : Grammar} (hhost : host ∈ set.grammars) {z : Zone}
    (hknown : ∀ id, z.grammar = some id → ∃ g, set.get? id = some g) :
    ∃ g ∈ set.grammars, (z.grammar = none ∧ g = host ∨
      ∃ id, z.grammar = some id ∧ set.get? id = some g) := by
  cases hgrammar : z.grammar with
  | none => exact ⟨host, hhost, Or.inl ⟨rfl, rfl⟩⟩
  | some id =>
    obtain ⟨g, hg⟩ := hknown id hgrammar
    exact ⟨g, GrammarSet.mem_of_get? hg, Or.inr ⟨id, rfl, hg⟩⟩

/-- An expression that is not empty is run in its grammar. -/
theorem expressionTokens_eq {host g : Grammar} {z : Zone} (hne : z.body ≠ [])
    (hg : z.grammar = none ∧ g = host ∨ ∃ id, z.grammar = some id ∧ set.get? id = some g) :
    expressionTokens set embedded host z = embedded g z.bodyStart z.body := by
  have hempty : ¬z.body.isEmpty = true := by simpa using hne
  rw [expressionTokens, if_neg hempty]
  rcases hg with ⟨hnone, rfl⟩ | ⟨id, hid, hget⟩
  · rw [hnone]
    rfl
  · rw [hid]
    dsimp only
    rw [lookup_eq hget]
    rfl

/-! ### Steps -/

/-- A token of a run with what it comes from: the regions that are open in front of it, the
token as the scanner finds it, and what the scanner and its action report. -/
structure Step where
  stack : RegionStack
  raw : RawToken
  found : List Diagnostic
  acted : List Diagnostic

namespace Step

/-- The expression of a zone of the token. -/
def expression (set : GrammarSet) (embedded : Embedded) (step : Step) (z : Zone) :
    Traced (List Token) :=
  expressionTokens set embedded step.stack.current z

/-- The tree of the token. -/
def token (set : GrammarSet) (embedded : Embedded) (step : Step) : Token :=
  .node step.raw.kind step.raw.span
    (if step.raw.zones.isEmpty then []
      else interleave step.raw.kind step.raw.span.stop
        (fun z => (step.expression set embedded z).get) step.raw.span.start step.raw.zones)

/-- What is reported about the token: by the scanner, by the expressions in order, and by
its action. -/
def reports (set : GrammarSet) (embedded : Embedded) (step : Step) : List Diagnostic :=
  step.found ++ step.raw.zones.flatMap (fun z => (step.expression set embedded z).diagnostics) ++
    step.acted

end Step

/-- **A replay** of the text up to an offset, from some open regions on: the steps, and the
regions that are open at the end. -/
inductive Replay (set : GrammarSet) (budget : Nat) (t : Text) (stop : Nat) :
    RegionStack → Nat → List Step → RegionStack → Prop
  | done (stack : RegionStack) : Replay set budget t stop stack stop [] stack
  | token {stack next final : RegionStack} {offset : Nat} {raw : RawToken} {scanner : Scanner}
      {acted : List Diagnostic} {steps : List Step}
      (scan : (Scanner.start stack.current t offset stop budget).scanOne = (some raw, scanner))
      (act : act set stack raw.span raw.action = ⟨acted, .ok next⟩)
      (rest : Replay set budget t stop next raw.span.stop steps final) :
      Replay set budget t stop stack offset (⟨stack, raw, scanner.diagnostics, acted⟩ :: steps)
        final

/-- What holds of every step of a replay in a valid set: the grammar in force is of the set,
the token stands in the text with its zones inside it, the grammars of the zones are known,
there is budget for them, and the action reports at most once. -/
structure Step.Placed (set : GrammarSet) (budget : Nat) (t : Text) (m : Text) (step : Step) :
    Prop where
  within : step.stack.Within set
  ne_nil : m ≠ []
  stands : Text.At t step.raw.span.start m
  span_eq : step.raw.span = ⟨step.raw.span.start, step.raw.span.start + m.width⟩
  zones : ZonesIn step.raw.span.start m step.raw.zones
  budget_pos : ∀ z ∈ step.raw.zones, 0 < budget
  known : ∀ z ∈ step.raw.zones, ∀ id, z.grammar = some id → ∃ g, set.get? id = some g
  acted_le : step.acted.length ≤ 1

/-- Expressions in a grammar of the set are tokenized, and the tokens tile the
expression. -/
def Embedded.Tiling (set : GrammarSet) (embedded : Embedded) : Prop :=
  ∀ g ∈ set.grammars, ∀ offset t, ∃ tokens,
    (embedded g offset t).outcome = .ok tokens ∧ Tiles offset t tokens

namespace Step.Placed

variable {step : Step}

/-- The grammar that the expression of a zone is in. -/
theorem exists_grammar (h : step.Placed set budget t m) {z : Zone} (hz : z ∈ step.raw.zones) :
    ∃ g ∈ set.grammars, (z.grammar = none ∧ g = step.stack.current ∨
      ∃ id, z.grammar = some id ∧ set.get? id = some g) :=
  exists_zone_grammar h.within.current_mem (h.known z hz)

theorem expression_eq {z : Zone} (hne : z.body ≠ []) {g : Grammar}
    (hg : z.grammar = none ∧ g = step.stack.current ∨
      ∃ id, z.grammar = some id ∧ set.get? id = some g) :
    step.expression set embedded z = embedded g z.bodyStart z.body :=
  expressionTokens_eq hne hg

/-- The expressions of a token tile their zones. -/
theorem expression_tiles (h : step.Placed set budget t m)
    (he : 0 < budget → embedded.Tiling set) {z : Zone} (hz : z ∈ step.raw.zones) :
    ∃ tokens, (step.expression set embedded z).outcome = .ok tokens ∧
      Tiles z.bodyStart z.body tokens := by
  by_cases hne : z.body = []
  · refine ⟨[], ?_, tiles_nil.mpr hne⟩
    rw [expression, expressionTokens, hne]
    rfl
  -- A zone exists only while there is budget, so the level below may be used.
  · obtain ⟨g, hmem, hg⟩ := h.exists_grammar hz
    rw [expression_eq hne hg]
    exact he (h.budget_pos z hz) g hmem _ _

theorem splice_eq (h : step.Placed set budget t m) (he : 0 < budget → embedded.Tiling set) :
    splice set embedded step.stack.current step.raw =
      ⟨step.raw.zones.flatMap (fun z => (step.expression set embedded z).diagnostics),
        .ok (step.token set embedded)⟩ := by
  have hinner : ∀ z ∈ step.raw.zones,
      (expressionTokens set embedded step.stack.current z).outcome =
        .ok (step.expression set embedded z).get := by
    intro z hz
    obtain ⟨tokens, hok, -⟩ := h.expression_tiles he hz
    rw [Traced.get_eq_of_outcome hok]
    exact hok
  exact Run.splice_eq hinner

/-- **The tree of a step is over the token.** -/
theorem over_token (h : step.Placed set budget t m) (he : 0 < budget → embedded.Tiling set) :
    Over step.raw.span.start m (step.token set embedded) := by
  rw [Step.token, h.span_eq]
  split
  · exact over_leaf h.ne_nil
  · refine over_node h.ne_nil (tiles_interleave h.zones fun z hz => ?_)
    obtain ⟨tokens, hok, htiles⟩ := h.expression_tiles he hz
    rwa [Traced.get_eq_of_outcome hok]

end Step.Placed

/-! ### Replays -/

theorem scanOne_start (g : Grammar) (budget : Nat) (hat : Text.At t offset m) (hne : m ≠ []) :
    ∃ scanner, (Scanner.start g t offset (offset + m.width) budget).scanOne =
      (some (RawToken.ofMatch (g.firstMatch budget offset m) offset m), scanner) ∧
        scanner.diagnostics = (g.firstMatch budget offset m).diagnostics := by
  have hrest : (Scanner.start g t offset (offset + m.width) budget).rest = m := hat.slice_eq
  have hscan := Scanner.scanOne_of_rest_ne_nil fun hnil => hne (hrest.symm.trans hnil)
  rw [hrest] at hscan
  exact ⟨_, hscan, List.nil_append _⟩

/-- A turn of a run in front of a text at an offset: the step that is made, the regions that
it leads to, what it reads of the text, and what it leaves. -/
structure Turn (set : GrammarSet) (budget : Nat) (t : Text) (offset : Nat) (m : Text)
    (step : Step) (next : RegionStack) (p r : Text) : Prop where
  cut : m = p ++ r
  length_eq : p.length = (step.stack.current.firstMatch budget offset m).length
  raw_eq : step.raw = RawToken.ofMatch (step.stack.current.firstMatch budget offset m) offset m
  found_eq : step.found = (step.stack.current.firstMatch budget offset m).diagnostics
  scan : ∃ scanner, scanner.diagnostics = step.found ∧
    (Scanner.start step.stack.current t offset (offset + m.width) budget).scanOne =
      (some step.raw, scanner)
  span_eq : step.raw.span = ⟨offset, offset + p.width⟩
  placed : step.Placed set budget t p
  act_eq : act set step.stack step.raw.span step.raw.action = ⟨step.acted, .ok next⟩
  within : next.Within set

/-- **In front of a text that is not empty a turn can be made**, in a valid set. -/
theorem exists_turn (budget : Nat) (hs : set.Valid) (hstack : stack.Within set)
    (hat : Text.At t offset m) (hne : m ≠ []) :
    ∃ raw found acted next p r,
      Turn set budget t offset m ⟨stack, raw, found, acted⟩ next p r := by
  have hfits : (stack.current.firstMatch budget offset m).Fits stack.current.rules budget offset
      m := hs.fits_firstMatch hstack.current_mem hne
  obtain ⟨scanner, hscan, hfound⟩ := scanOne_start stack.current budget hat hne
  -- From here on only the bounds of the match matter, not the rule that found it.
  generalize hmatch : stack.current.firstMatch budget offset m = found at *
  obtain ⟨acted, next, hact, hacted, hnext⟩ :=
    exists_act_eq (RawToken.ofMatch found offset m).span hstack
      fun id hid => hfits.known_of_target hs hstack.current_mem hid
  have hcut : m = m.take found.length ++ m.drop found.length := (List.take_append_drop _ _).symm
  have hplaced : Step.Placed set budget t (m.take found.length)
      ⟨stack, RawToken.ofMatch found offset m, found.diagnostics, acted⟩ := by
    refine ⟨hstack, hfits.take_ne_nil, ?_, rfl, hfits.zones, fun z hz => (hfits.forms z hz).1, ?_, hacted⟩
    · rw [hcut] at hat
      exact hat.left
    · intro z hz id hid
      exact hfits.known_of_mem_zones hs hstack.current_mem hz hid
  refine ⟨_, found.diagnostics, acted, next, _, _, hcut, ?_, ?_, ?_, ?_, rfl, hplaced, hact,
    hnext⟩
  · rw [hmatch, hfits.length_take]
  · rw [hmatch]
  · rw [hmatch]
  · exact ⟨scanner, hfound, hscan⟩

namespace Turn

variable {step : Step} {next : RegionStack} {p r : Text}

/-- What is left of the text is shorter. -/
theorem length_lt (h : Turn set budget t offset m step next p r) : r.length < m.length := by
  have hpos : 0 < p.length := List.length_pos_iff.mpr h.placed.ne_nil
  rw [h.cut, List.length_append]
  omega

theorem stop_eq (h : Turn set budget t offset m step next p r) :
    offset + p.width + r.width = offset + m.width := by
  rw [h.cut, Text.width_append, Nat.add_assoc]

/-- **One turn of the loop** reports what the step reports and puts the token of the step in
front of the others. -/
theorem forestFrom_eq (h : Turn set budget t offset m step next p r)
    (he : 0 < budget → embedded.Tiling set) :
    forestFrom set budget embedded false 0 step.stack offset m = (do
      Traced.report (step.reports set embedded)
      let tokens ← forestFrom set budget embedded false 0 next (offset + p.width) r
      pure (step.token set embedded :: tokens)) := by
  have hcut := h.cut
  subst hcut
  rw [forestFrom_step h.placed.ne_nil rfl h.length_eq, ← h.raw_eq, ← h.found_eq]
  dsimp only
  rw [h.placed.splice_eq he, h.act_eq]
  simp [Traced.report, Step.reports]

/-- The token of a turn is laid in front of the tokens of the rest. -/
theorem tiles (h : Turn set budget t offset m step next p r)
    (he : 0 < budget → embedded.Tiling set) {us : List Token}
    (hrest : Tiles (offset + p.width) r us) : Tiles offset m (step.token set embedded :: us) := by
  have hover := h.placed.over_token he
  rw [h.span_eq] at hover
  exact tiles_cons.mpr ⟨p, r, h.cut, hover, hrest⟩

end Turn

/-- **A text can be replayed**, the loop returns the tokens of the steps and reports step by
step, and the tokens tile the text. -/
theorem exists_replay (budget : Nat) (hs : set.Valid) (hstack : stack.Within set)
    (hat : Text.At t offset m) :
    ∃ steps final, Replay set budget t (offset + m.width) stack offset steps final ∧
      (∀ step ∈ steps, ∃ p, step.Placed set budget t p) ∧
      ∀ embedded : Embedded, (0 < budget → embedded.Tiling set) →
        forestFrom set budget embedded false 0 stack offset m =
          ⟨steps.flatMap (·.reports set embedded) ++
              (final.closeAll (offset + m.width)).1.map (unclosedDiagnostic (offset + m.width)),
            .ok (steps.map (·.token set embedded))⟩ ∧
        Tiles offset m (steps.map (·.token set embedded)) := by
  -- The induction is on the length of the text: every turn leaves less of it.
  induction hn : m.length using Nat.strongRecOn generalizing stack offset m with
  | ind n ih =>
    by_cases hne : m = []
    · subst hne
      refine ⟨[], stack, .done stack, by simp, fun embedded _ => ⟨?_, tiles_nil.mpr rfl⟩⟩
      simp [forestFrom, closeOut, Traced.report]
    · obtain ⟨raw, found, acted, next, p, r, hturn⟩ := exists_turn budget hs hstack hat hne
      obtain ⟨scanner, hfound, hscan⟩ := hturn.scan
      have hrest : Text.At t (offset + p.width) r := by
        rw [hturn.cut] at hat
        exact hat.right
      obtain ⟨steps, final, hreplay, hsteps, hrun⟩ :=
        ih r.length (hn ▸ hturn.length_lt) hturn.within hrest rfl
      rw [hturn.stop_eq] at hreplay hrun
      have hspan : raw.span.stop = offset + p.width := by rw [hturn.span_eq]
      refine ⟨⟨stack, raw, found, acted⟩ :: steps, final, ?_, ?_, ?_⟩
      · rw [← hspan] at hreplay
        dsimp only at hfound
        rw [← hfound]
        exact .token hscan hturn.act_eq hreplay
      · exact List.forall_mem_cons.mpr ⟨⟨p, hturn.placed⟩, hsteps⟩
      · intro embedded he
        obtain ⟨hforest, htiles⟩ := hrun embedded he
        refine ⟨(hturn.forestFrom_eq he).trans ?_, hturn.tiles he htiles⟩
        rw [hforest]
        simp [Traced.report]

/-! ### Levels -/

/-- The runs that a run with some budget embeds: they have one level less, and without
budget there are none. -/
def below (set : GrammarSet) (limit : Nat) : (budget : Nat) → Embedded
  | 0 => fun _ _ _ => pure []
  | budget + 1 => forest set limit budget false

theorem forest_eq (limit : Nat) (cancelled : Bool) (g : Grammar) (offset : Nat) (m : Text) :
    forest set limit budget cancelled g offset m =
      forestFrom set budget (below set limit budget) cancelled 0
        (RegionStack.start g offset limit) offset m := by
  cases budget <;> rfl

/-- Every text stands at every offset of some text. -/
theorem exists_at (offset : Nat) (m : Text) : ∃ t, Text.At t offset m := by
  refine ⟨List.replicate offset 'a' ++ m, List.replicate offset 'a', [], by simp, ?_⟩
  induction offset with
  | zero => rfl
  | succ n ih =>
    rw [List.replicate_succ, Text.width_cons, ← ih, Nat.add_comm]
    rfl

/-- **A run is total and tiles its text**, for every budget. The levels below it are runs
with less budget. -/
theorem tiling_forest (hs : set.Valid) (limit budget : Nat) :
    Embedded.Tiling set (forest set limit budget false) := by
  -- The induction: what is embedded has less budget, and without budget nothing is.
  have hbelow : 0 < budget → Embedded.Tiling set (below set limit budget) := by
    intro hpos
    cases budget with
    | zero => exact absurd hpos (Nat.lt_irrefl 0)
    | succ budget => exact tiling_forest hs limit budget
  intro g hg offset m
  obtain ⟨t, hat⟩ := exists_at offset m
  obtain ⟨steps, final, -, -, hrun⟩ :=
    exists_replay budget hs (RegionStack.within_start offset limit hg) hat
  obtain ⟨hforest, htiles⟩ := hrun _ hbelow
  refine ⟨_, ?_, htiles⟩
  rw [forest_eq, hforest]

theorem tiling_below (hs : set.Valid) (limit : Nat) (hpos : 0 < budget) :
    Embedded.Tiling set (below set limit budget) := by
  obtain ⟨budget, rfl⟩ := Nat.exists_eq_add_one.mpr hpos
  exact tiling_forest hs limit budget

end Run

end Polylex
