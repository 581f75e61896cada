import Polylex.Proofs.Literal.Warnings
import Polylex.Proofs.Run.Account
import Polylex.Proofs.Run.History
import Polylex.Proofs.ZonePlaces

/-!
# Where the reports of a run come from

A run reports about its own tokens and regions, and the runs of the expressions in its literals
report about theirs, in between; the list that is left does not say which is which. Here every
report is kept together with the zones in which it has been raised, the outermost first
(`Polylex.Run.Report`). The log of a run (`Polylex.Run.Logs`) is made up of the play of its range
and of the logs of the expressions, with one level less, and without the zones it is the list of
what is reported (`Polylex.Run.exists_logs`).

All reports are warnings about the range of the run, and about the expression of every zone they
have been raised in (`Polylex.Run.Logs.warnsIn`). Only the places of what a run reports itself
have to be looked at: those of its literals are in front of the end of the range; a refusal is
about a token; and a region that is never closed has been opened by a token of the same run, which
is what the stack keeps (`Polylex.Regions.Standing`). What an expression reports is inside the
expression, and so inside everything around it.
-/

namespace Polylex

/-! ### Tokens and their zones -/

theorem RawToken.ZonesPlaced.encloses {g : Grammar} {budget limit : Nat} {t : Text}
    {raw : RawToken} (h : raw.ZonesPlaced g budget t limit) (hrange : t.IsRange raw.span)
    {z : Zone} (hz : z ∈ raw.zones) : raw.span.encloses z.bodySpan = true := by
  obtain ⟨_, _, _, opening, content, closing, _, _, _, _, htoken, _, hzones⟩ :=
    h.held (List.ne_nil_of_mem hz)
  obtain ⟨hstart, hstop, -⟩ := hzones z hz
  have hend : raw.span.stop = raw.span.start + (opening ++ content ++ closing).width := by
    rw [← htoken]
    exact hrange.at.2
  rw [Text.width_append, Text.width_append] at hend
  refine Span.encloses_iff.mpr ⟨?_, ?_⟩
  · show raw.span.start ≤ z.start + z.opener.width
    omega
  · have hbody : z.bodyStop ≤ z.stop := Nat.le_add_right _ _
    show z.bodyStop ≤ raw.span.stop
    omega

namespace Regions

variable {set : GrammarSet} {root : Grammar} {limit budget offset start stop : Nat} {t : Text}
variable {token : Span} {opened next final : List Open} {pushed popped : Bool}
variable {ds : List Diagnostic} {moves : List Move}

/-- What a scanner reports is what is reported about its token. -/
theorem diagnostics_scanOne {g : Grammar} {raw : RawToken} {scanner : Scanner}
    (h : (Scanner.start g t offset stop budget).scanOne = (some raw, scanner)) :
    scanner.diagnostics = (g.firstMatch budget offset (t.slice ⟨offset, stop⟩)).diagnostics := by
  have hne := Scanner.rest_ne_nil_of_scanOne h
  rw [Scanner.scanOne_of_rest_ne_nil hne] at h
  cases h
  exact List.nil_append _

/-! ### Open regions -/

/-- **The open regions stand in a text** between two offsets: their grammars are of the set, and
the tokens that have opened them are there. -/
def Standing (set : GrammarSet) (t : Text) (start offset : Nat) (opened : List Open) : Prop :=
  ∀ r ∈ opened, r.grammar ∈ set.grammars ∧ t.IsRange r.opener ∧
    start ≤ r.opener.start ∧ r.opener.stop ≤ offset

theorem Standing.mono {later : Nat} (h : Standing set t start offset opened)
    (hle : offset ≤ later) : Standing set t start later opened := by
  intro r hr
  obtain ⟨hmem, hrange, hstart, hstop⟩ := h r hr
  exact ⟨hmem, hrange, hstart, Nat.le_trans hstop hle⟩

theorem Standing.current_mem (h : Standing set t start offset opened)
    (hroot : root ∈ set.grammars) : current root opened ∈ set.grammars := by
  cases opened with
  | nil => exact hroot
  | cons r rest => exact (h r List.mem_cons_self).1

theorem Standing.leaves (h : Standing set t start offset opened)
    (hleaves : Leaves opened popped next) : Standing set t start offset next := by
  cases hleaves with
  | atRoot => exact h
  | pop r rest => exact (List.forall_mem_cons.mp h).2

/-- The token behind some regions opens one more, or is refused with a report about it. -/
theorem Standing.enters {id : String} (h : Standing set t start offset opened)
    (htoken : t.IsRange token) (hstart : start ≤ token.start) (hstop : offset ≤ token.stop)
    (henters : Enters set root limit id token opened pushed ds next) :
    Standing set t start token.stop next ∧ ∀ d ∈ ds, d.WarnsIn t token := by
  have hrefused {code : DiagnosticCode} {message : String} :
      ∀ d ∈ [Diagnostic.new code message token], d.WarnsIn t token := by
    intro d hd
    obtain rfl := List.mem_singleton.mp hd
    exact Diagnostic.warnsIn_new htoken token.encloses_self
  cases henters with
  | accepted known _ _ =>
    exact ⟨List.forall_mem_cons.mpr ⟨⟨GrammarSet.mem_of_get? known, htoken, hstart, Nat.le_refl _⟩,
      h.mono hstop⟩, List.forall_mem_nil _⟩
  | alreadyActive _ _ _ => exact ⟨h.mono hstop, hrefused⟩
  | full _ _ _ => exact ⟨h.mono hstop, hrefused⟩

/-- **An action keeps the regions standing**, and what it reports is about its token. -/
theorem Standing.acts {action : Option RegionAction} (h : Standing set t start offset opened)
    (htoken : t.IsRange token) (hstart : start ≤ token.start) (hstop : offset ≤ token.stop)
    (hacts : Acts set root limit token opened action pushed popped ds next) :
    Standing set t start token.stop next ∧ ∀ d ∈ ds, d.WarnsIn t token := by
  cases hacts with
  | nothing => exact ⟨h.mono hstop, List.forall_mem_nil _⟩
  | enter enters => exact h.enters htoken hstart hstop enters
  | exit leaves => exact ⟨(h.leaves leaves).mono hstop, List.forall_mem_nil _⟩
  | switch leaves enters => exact (h.leaves leaves).enters htoken hstart hstop enters

/-- A region that is never closed is reported from behind the token that has opened it up to the
end of the range, and the report points to the token. -/
theorem Standing.warnsIn_neverClosed (h : Standing set t start stop opened)
    (hstop : t.IsBoundary stop) :
    ∀ r ∈ opened, (neverClosed stop r).WarnsIn t ⟨start, stop⟩ := by
  intro r hr
  obtain ⟨-, hrange, hstart, hle⟩ := h r hr
  have hregion : t.IsRange ⟨r.opener.stop, stop⟩ := ⟨hrange.stop, hstop, hle⟩
  have hspan : Span.encloses ⟨start, stop⟩ ⟨r.opener.stop, stop⟩ = true :=
    Span.encloses_iff.mpr ⟨Nat.le_trans hstart hrange.start_le_stop, Nat.le_refl _⟩
  exact (Diagnostic.warnsIn_new hregion hspan).withRelated hrange
    (Span.encloses_iff.mpr ⟨hstart, hle⟩)

/-! ### Plays -/

/-- **A move is inside a range**: the grammar in force is of the set, the expressions of the zones
are in the range, and so is what is reported about the token. -/
structure Move.Inside (set : GrammarSet) (root : Grammar) (t : Text) (range : Span) (m : Move) :
    Prop where
  current : Regions.current root m.opened ∈ set.grammars
  zones : ∀ z ∈ m.raw.zones, t.IsRange z.bodySpan ∧ range.encloses z.bodySpan = true
  found : ∀ d ∈ m.found, d.WarnsIn t range
  acted : ∀ d ∈ m.acted, d.WarnsIn t range

/-- **All moves of a play are inside the range**, and at its end the open regions stand in it. -/
theorem Plays.inside (hs : set.Valid) (hroot : root ∈ set.grammars)
    (h : Plays set root limit budget t stop opened offset moves final)
    (hrange : t.IsRange ⟨offset, stop⟩) (hle : start ≤ offset)
    (hopened : Standing set t start offset opened) :
    (∀ m ∈ moves, m.Inside set root t ⟨start, stop⟩) ∧ Standing set t start stop final := by
  induction h with
  | done opened => exact ⟨List.forall_mem_nil _, hopened⟩
  | @token opened next final offset raw pushed popped scanner acted moves scan acts rest ih =>
    have hcurrent := hopened.current_mem hroot
    have hforms : ∀ r ∈ (current root opened).rules, ∀ form ∈ r.matcher.interpolations,
        form.opener ≠ [] := fun r hr form hform =>
      ((hs _ hcurrent r hr).forms form hform).opener_ne_nil
    obtain ⟨hstands, hstart, hcursor, hfirst, -⟩ :=
      (Scanner.stands_start hrange).step_of_scanOne hforms scan
    have hstart : raw.span.start = offset := hstart
    have hplaced := hfirst.zonesPlaced hforms hrange.stop
    have hbehind : t.IsRange ⟨raw.span.stop, stop⟩ :=
      ⟨hfirst.isRange.stop, hrange.stop, hfirst.within⟩
    have htoken : Span.encloses ⟨start, stop⟩ raw.span = true :=
      Span.encloses_iff.mpr ⟨hstart ▸ hle, hfirst.within⟩
    obtain ⟨hnext, hacted⟩ := hopened.acts hfirst.isRange (hstart ▸ hle)
      (hstart ▸ hfirst.isRange.start_le_stop) acts
    obtain ⟨hmoves, hfinal⟩ :=
      ih hbehind (Nat.le_trans (hstart ▸ hle) hfirst.isRange.start_le_stop) hnext
    refine ⟨List.forall_mem_cons.mpr ⟨⟨hcurrent, fun z hz => ?_, ?_, ?_⟩, hmoves⟩, hfinal⟩
    · exact ⟨(hplaced.ranges z hz).2.2.2.1,
        Span.encloses_trans htoken (hplaced.encloses hfirst.isRange hz)⟩
    · obtain ⟨hat, hstop⟩ := hrange.at
      intro d hd
      rw [diagnostics_scanOne scan] at hd
      have hinside := Grammar.warnsIn_of_mem_firstMatch hforms hat d hd
      rw [← hstop] at hinside
      exact hinside.mono (Span.encloses_iff.mpr ⟨hle, Nat.le_refl _⟩)
    · exact fun d hd => (hacted d hd).mono htoken

end Regions

namespace Run

/-! ### Logs -/

/-- A report with the zones in which it has been raised, the outermost first. -/
structure Report where
  zones : List Zone
  diagnostic : Diagnostic

namespace Report

/-- A report of the run itself. -/
def own (d : Diagnostic) : Report := ⟨[], d⟩

@[simp] theorem map_own (ds : List Diagnostic) : (ds.map own).map (·.diagnostic) = ds := by
  rw [List.map_map]
  exact List.map_id ds

/-- A report that has been raised in one more zone. -/
def inside (z : Zone) (r : Report) : Report := ⟨z :: r.zones, r.diagnostic⟩

/-- **A report keeps to its place**: it is a warning about a part of a range, and about a part of
the expression of every zone in which it has been raised. -/
structure WarnsIn (t : Text) (range : Span) (r : Report) : Prop where
  range : r.diagnostic.WarnsIn t range
  zones : ∀ z ∈ r.zones, r.diagnostic.WarnsIn t z.bodySpan

end Report

/-- The log of a move, given the logs of the expressions: what is reported about the literal, what
the expressions report in the order of the zones, and what the action reports. -/
def log (inner : Zone → List Report) (m : Regions.Move) : List Report :=
  m.found.map .own ++ m.raw.zones.flatMap (fun z => (inner z).map (.inside z)) ++
    m.acted.map .own

/-- **The log of a run** over a range with some levels of embedding: the logs of the moves of a
play, each with the logs of its expressions, which are run with one level less; and the reports
about the regions that are never closed. -/
inductive Logs (set : GrammarSet) (limit : Nat) (t : Text) :
    (budget : Nat) → (root : Grammar) → (range : Span) → List Report → Prop
  | play {budget : Nat} {root : Grammar} {range : Span} {moves : List Regions.Move}
      {final : List Regions.Open} {grammar : Regions.Move → Zone → Grammar}
      {inner : Regions.Move → Zone → List Report}
      (plays : Regions.Plays set root limit budget t range.stop [] range.start moves final)
      (named : ∀ m ∈ moves, ∀ z ∈ m.raw.zones,
        z.grammar = none ∧ grammar m z = Regions.current root m.opened ∨
          ∃ id, z.grammar = some id ∧ set.get? id = some (grammar m z))
      (zones : ∀ m ∈ moves, ∀ z ∈ m.raw.zones,
        Logs set limit t (budget - 1) (grammar m z) z.bodySpan (inner m z)) :
      Logs set limit t budget root range
        (moves.flatMap (fun m => log (inner m) m) ++
          (final.map (Regions.neverClosed range.stop)).map .own)

variable {set : GrammarSet} {limit budget : Nat} {t : Text} {root : Grammar} {range : Span}
variable {reports : List Report}

/-- **All reports of a log keep to their places.** -/
theorem Logs.warnsIn (hs : set.Valid) (h : Logs set limit t budget root range reports)
    (hroot : root ∈ set.grammars) (hrange : t.IsRange range) :
    ∀ r ∈ reports, r.WarnsIn t range := by
  have hown {d : Diagnostic} {range : Span} (hd : d.WarnsIn t range) :
      (Report.own d).WarnsIn t range := ⟨hd, List.forall_mem_nil _⟩
  induction h with
  | @play budget root range moves final grammar inner plays named zones ih =>
    obtain ⟨hmoves, hfinal⟩ :=
      plays.inside hs hroot hrange (Nat.le_refl _) (List.forall_mem_nil _)
    intro r hr
    rcases List.mem_append.mp hr with hr | hr
    · obtain ⟨m, hm, hr⟩ := List.mem_flatMap.mp hr
      obtain ⟨hcurrent, hzones, hfound, hacted⟩ := hmoves m hm
      rw [log, List.mem_append, List.mem_append] at hr
      rcases hr with (hr | hr) | hr
      · obtain ⟨d, hd, rfl⟩ := List.mem_map.mp hr
        exact hown (hfound d hd)
      · -- What an expression reports is inside it, and so in the range.
        obtain ⟨z, hz, hr⟩ := List.mem_flatMap.mp hr
        obtain ⟨r', hr', rfl⟩ := List.mem_map.mp hr
        obtain ⟨hbody, hspan⟩ := hzones z hz
        have hgrammar : grammar m z ∈ set.grammars := by
          rcases named m hm z hz with ⟨-, heq⟩ | ⟨id, -, hget⟩
          · rw [heq]
            exact hcurrent
          · exact GrammarSet.mem_of_get? hget
        obtain ⟨hinside, hinner⟩ := ih m hm z hz hgrammar hbody r' hr'
        exact ⟨hinside.mono hspan, List.forall_mem_cons.mpr ⟨hinside, hinner⟩⟩
      · obtain ⟨d, hd, rfl⟩ := List.mem_map.mp hr
        exact hown (hacted d hd)
    · rw [List.map_map] at hr
      obtain ⟨region, hregion, rfl⟩ := List.mem_map.mp hr
      exact hown (hfinal.warnsIn_neverClosed hrange.stop region hregion)

/-- Without the zones the log of a move is what its step reports. -/
theorem map_diagnostic_log {embedded : Embedded} {start : Nat} {m : Regions.Move}
    {inner : Zone → List Report}
    (h : ∀ z ∈ m.raw.zones,
      (expressionTokens set embedded (Regions.current root m.opened) z).diagnostics =
        (inner z).map (·.diagnostic)) :
    (log inner m).map (·.diagnostic) = (m.toStep root start limit).reports set embedded := by
  have hzones : m.raw.zones.flatMap
      (fun z => ((inner z).map (Report.inside z)).map (·.diagnostic)) =
      m.raw.zones.flatMap fun z =>
        (expressionTokens set embedded (Regions.current root m.opened) z).diagnostics := by
    refine List.flatMap_congr fun z hz => ?_
    rw [h z hz, List.map_map]
    rfl
  rw [log, List.map_append, List.map_append, Report.map_own, Report.map_own, List.map_flatMap,
    hzones, Step.reports, Regions.Move.toStep]
  simp only [Step.expression, Regions.current_toStack]

/-- The expression of a zone has a log, if all runs with one level less have one. -/
theorem exists_expression_logs (hs : set.Valid) {step : Step} {p : Text} {z : Zone}
    (hplaced : step.Placed set budget t p) (hz : z ∈ step.raw.zones)
    (hless : ∀ g ∈ set.grammars, ∀ range, t.IsRange range →
      ∃ reports, Logs set limit t (budget - 1) g range reports ∧
        (forest set limit (budget - 1) false g range.start (t.slice range)).diagnostics =
          reports.map (·.diagnostic)) :
    ∃ (g : Grammar) (inner : List Report),
      (z.grammar = none ∧ g = step.stack.current ∨
        ∃ id, z.grammar = some id ∧ set.get? id = some g) ∧
      Logs set limit t (budget - 1) g z.bodySpan inner ∧
      (expressionTokens set (below set limit budget) step.stack.current z).diagnostics =
        inner.map (·.diagnostic) := by
  have hbody : t.At z.bodyStart z.body :=
    Literal.at_bodyStart (hplaced.zones.at_of_mem hplaced.stands hz)
  have hslice : t.slice z.bodySpan = z.body := hbody.slice_eq
  obtain ⟨g, hg, hnamed⟩ := hplaced.exists_grammar hz
  obtain ⟨inner, hlogs, hinner⟩ := hless g hg z.bodySpan hbody.isRange
  obtain ⟨tokens, hok, -⟩ := tiling_forest hs limit (budget - 1) g hg z.bodyStart z.body
  have hrun : forest set limit (budget - 1) false g z.bodyStart z.body =
      ⟨inner.map (·.diagnostic), .ok tokens⟩ := by
    rw [← hok, ← hinner, hslice]
    rfl
  refine ⟨g, inner, hnamed, hlogs, ?_⟩
  rw [expressionTokens_below (hplaced.budget_pos z hz) hnamed hrun]

/-- **A run over a range has a log**, and reports what is in it. -/
theorem exists_logs (hs : set.Valid) (hroot : root ∈ set.grammars) (hrange : t.IsRange range)
    (limit budget : Nat) :
    ∃ reports, Logs set limit t budget root range reports ∧
      (forest set limit budget false root range.start (t.slice range)).diagnostics =
        reports.map (·.diagnostic) := by
  -- The induction is on the budget: an expression has less of it.
  induction budget using Nat.strongRecOn generalizing root range with
  | ind budget ih =>
    obtain ⟨hat, hstop⟩ := hrange.at
    obtain ⟨steps, stack, hreplay, hsteps, hrun⟩ := exists_replay budget hs
      (RegionStack.within_start range.start limit hroot) hat
    obtain ⟨hforest, -⟩ := hrun _ (tiling_below hs limit)
    rw [← hstop] at hreplay hforest
    rw [← Regions.toStack_nil] at hreplay
    obtain ⟨moves, final, rfl, rfl, hplays⟩ := Regions.exists_plays hreplay
    have hzone (m : Regions.Move) (z : Zone) : ∃ (g : Grammar) (inner : List Report),
        m ∈ moves → z ∈ m.raw.zones →
          (z.grammar = none ∧ g = Regions.current root m.opened ∨
            ∃ id, z.grammar = some id ∧ set.get? id = some g) ∧
          Logs set limit t (budget - 1) g z.bodySpan inner ∧
          (expressionTokens set (below set limit budget) (Regions.current root m.opened)
            z).diagnostics = inner.map (·.diagnostic) := by
      by_cases hmem : m ∈ moves ∧ z ∈ m.raw.zones
      · obtain ⟨hm, hz⟩ := hmem
        obtain ⟨p, hplaced⟩ := hsteps _ (List.mem_map_of_mem hm)
        obtain ⟨g, inner, hinner⟩ := exists_expression_logs hs hplaced hz fun g hg range hrange =>
          ih (budget - 1) (Nat.sub_lt (hplaced.budget_pos z hz) Nat.one_pos) hg hrange
        rw [Regions.Move.toStep, Regions.current_toStack] at hinner
        exact ⟨g, inner, fun _ _ => hinner⟩
      · exact ⟨root, [], fun hm hz => absurd ⟨hm, hz⟩ hmem⟩
    choose grammar inner hzones using hzone
    refine ⟨_, .play hplays (fun m hm z hz => (hzones m z hm hz).1)
      (fun m hm z hz => (hzones m z hm hz).2.1), ?_⟩
    have hmoves : moves.flatMap (fun m => (log (inner m) m).map (·.diagnostic)) =
        moves.flatMap fun m =>
          (m.toStep root range.start limit).reports set (below set limit budget) :=
      List.flatMap_congr fun m hm => map_diagnostic_log fun z hz => (hzones m z hm hz).2.2
    rw [forest_eq, hforest, Regions.unclosed_toStack, List.map_append, List.map_flatMap, hmoves,
      List.flatMap_map, Report.map_own]

end Run

/-! ### Runs and texts -/

namespace Session

variable {s : Session} {t : Text} {root : Grammar} {span : Span}

/-- **What a run adds to the reports of a session** is in a log, unless the run is cancelled: then
nothing is added. -/
theorem exists_reports (hs : s.grammars.Valid) (hroot : root ∈ s.grammars.grammars)
    (hspan : t.IsRange span) (depth : Nat) :
    ∃ reports : List Run.Report,
      (depth = 0 ∧ s.isCancelled = true ∧ reports = [] ∨
        Run.Logs s.grammars s.options.maxRegionDepth t (s.options.maxInterpolationDepth - depth)
          root span reports) ∧
      (s.runRange t root span depth).2.diagnostics =
        s.diagnostics ++ reports.map (·.diagnostic) ∧
      ∀ r ∈ reports, r.WarnsIn t span := by
  by_cases hcancelled : depth = 0 ∧ s.isCancelled = true
  · obtain ⟨rfl, hsignal⟩ := hcancelled
    refine ⟨[], Or.inl ⟨rfl, hsignal, rfl⟩, ?_, List.forall_mem_nil _⟩
    have htrue : (0 == 0 && s.isCancelled) = true := by rw [hsignal]; rfl
    rw [runRange_eq, trace, htrue]
    refine congrArg (s.diagnostics ++ ·) ?_
    by_cases hnil : t.slice span = []
    · rw [hnil, Run.forest_eq]
      rfl
    · rw [Run.forest_cancelled hnil]
      rfl
  · obtain ⟨reports, hlogs, hreports⟩ := Run.exists_logs hs hroot hspan s.options.maxRegionDepth
      (s.options.maxInterpolationDepth - depth)
    refine ⟨reports, Or.inr hlogs, ?_, hlogs.warnsIn hs hroot hspan⟩
    rw [runRange_eq, trace,
      not_cancelled fun hdepth => Bool.eq_false_iff.mpr fun h => hcancelled ⟨hdepth, h⟩]
    exact congrArg (s.diagnostics ++ ·) hreports

/-- A fresh session has only warnings after the run over a text. -/
theorem warning_of_run {tokens : List Token} {after : Session} {id : String}
    (hs : s.grammars.Valid) (hfresh : s.diagnostics = []) (h : s.run t id = (.ok tokens, after)) :
    ∀ d ∈ after.diagnostics, d.severity = .warning := by
  rw [run] at h
  cases hget : s.grammars.get? id with
  | none =>
    rw [grammar_eq_error hget] at h
    cases h
  | some g =>
    rw [grammar_eq_ok hget] at h
    have hspan : t.IsRange ⟨0, t.width⟩ :=
      Text.isRange_iff_exists.mpr ⟨[], t, [], by simp, by simp⟩
    obtain ⟨reports, -, hreports, hwarns⟩ :=
      exists_reports hs (GrammarSet.mem_of_get? hget) hspan 0
    have hrun : s.runRange t g ⟨0, t.width⟩ 0 = (.ok tokens, after) := h
    rw [hrun, hfresh, List.nil_append] at hreports
    intro d hd
    obtain ⟨r, hr, rfl⟩ := List.mem_map.mp (hreports ▸ hd)
    exact (hwarns r hr).range.warning

end Session

namespace Tokenizer

variable {set : GrammarSet} {o : TokenizeOptions} {signal : Option Bool} {t : Text} {root : String}

/-- **A text is tokenized with warnings** if it is tokenized with any report. -/
theorem hasWarnings_iff (hs : set.Valid) {r : Tokenized}
    (h : (Tokenizer.mk set o).tokenizeUnder signal t root = .ok r) :
    r.hasWarnings = true ↔ r.diagnostics ≠ [] := by
  have hwarning : ∀ d ∈ r.diagnostics, d.severity = .warning := by
    rw [tokenizeUnder] at h
    dsimp only at h
    split at h
    · cases h
    next tokens after hrun =>
      rw [diagnostics_of_finish_eq_ok h]
      exact Session.warning_of_run hs rfl hrun
  rw [Tokenized.hasWarnings, List.any_eq_true]
  constructor
  · rintro ⟨d, hd, -⟩
    exact List.ne_nil_of_mem hd
  · intro hne
    obtain ⟨d, hd⟩ := List.exists_mem_of_ne_nil _ hne
    exact ⟨d, hd, by rw [hwarning d hd]; rfl⟩

end Tokenizer

namespace Session

/-- **What a run reports keeps to its place.** With a set that has been built, every report that a
run over a range of a text adds is a warning, and its places are ranges of the text inside the
range, and inside the expression of every zone in which it has been raised. So a text is tokenized
with warnings if and only if it is tokenized with any report. -/
theorem runRange_reports_in_place {s : Session} {t : Text} {root : Grammar} {span : Span}
    {grammars : List Grammar} (hbuild : GrammarSet.build grammars = .ok s.grammars)
    (hroot : root ∈ s.grammars.grammars) (hspan : t.IsRange span) (depth : Nat) :
    (∃ reports : List Run.Report,
      (depth = 0 ∧ s.isCancelled = true ∧ reports = [] ∨
        Run.Logs s.grammars s.options.maxRegionDepth t (s.options.maxInterpolationDepth - depth)
          root span reports) ∧
      (s.runRange t root span depth).2.diagnostics =
        s.diagnostics ++ reports.map (·.diagnostic) ∧
      ∀ r ∈ reports, r.WarnsIn t span) ∧
    ∀ (o : TokenizeOptions) (signal : Option Bool) (text : Text) (id : String) (r : Tokenized),
      (Tokenizer.mk s.grammars o).tokenizeUnder signal text id = .ok r →
        (r.hasWarnings = true ↔ r.diagnostics ≠ []) := by
  have hs := GrammarSet.valid_of_build hbuild
  exact ⟨exists_reports hs hroot hspan depth, fun o signal text id r h =>
    Tokenizer.hasWarnings_iff hs h⟩

/-- The case of parentheses that open regions and are never closed: one in the expression of a
literal, whose region ends with the expression, and one in front of the literal, whose region ends
with the range. -/
theorem runRange_reports_in_place_parentheses :
    let g : Grammar :=
      ⟨"p", [⟨.punctuation, .literal ['('], some (.enter "p")⟩,
        ⟨.string, .delimited ⟨['"'], ['"'], none, false, [.braced ['{'] ['}'] none]⟩, none⟩],
        true⟩
    let s : Session := { grammars := ⟨[g]⟩ }
    let t : Text := ['é', '(', '"', '{', '(', '}', '"']
    GrammarSet.build [g] = .ok s.grammars ∧ g ∈ s.grammars.grammars ∧ t.IsRange ⟨2, 8⟩ ∧
    (s.runRange t g ⟨2, 8⟩ 0).2.diagnostics.map (·.span) = [⟨6, 6⟩, ⟨3, 8⟩] ∧
    (∃ reports : List Run.Report,
      (s.runRange t g ⟨2, 8⟩ 0).2.diagnostics = s.diagnostics ++ reports.map (·.diagnostic) ∧
      ∀ r ∈ reports, r.WarnsIn t ⟨2, 8⟩) ∧
    ∃ r, (Tokenizer.mk s.grammars {}).tokenizeUnder none t "p" = .ok r ∧ r.hasWarnings = true := by
  intro g s t
  have hbuild : GrammarSet.build [g] = .ok s.grammars := rfl
  have hspan : t.IsRange ⟨2, 8⟩ :=
    Text.isRange_iff_exists.mpr ⟨['é'], ['(', '"', '{', '(', '}', '"'], [], rfl, rfl⟩
  obtain ⟨⟨reports, -, hreports, hwarns⟩, hwarnings⟩ :=
    runRange_reports_in_place hbuild List.mem_cons_self hspan 0
  have hlength : (((Tokenizer.mk s.grammars {}).tokenizeUnder none t "p").toOption.map
      (·.diagnostics.length)) = some 2 := by decide +kernel
  refine ⟨hbuild, List.mem_cons_self, hspan, by decide +kernel, ⟨reports, hreports, hwarns⟩, ?_⟩
  cases htokenize : (Tokenizer.mk s.grammars {}).tokenizeUnder none t "p" with
  | error e =>
    rw [htokenize] at hlength
    cases hlength
  | ok r =>
    rw [htokenize] at hlength
    have hne : r.diagnostics ≠ [] := by
      rintro hnil
      simp [Except.toOption, hnil] at hlength
    exact ⟨r, rfl, (hwarnings {} none t "p" r htokenize).mpr hne⟩

end Session

end Polylex
