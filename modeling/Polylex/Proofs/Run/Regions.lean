import Polylex.Proofs.Run.Composition

/-!
# The regions of a run, replayed

What a run does with regions is described here by a stack that knows nothing of how the run
works: a list of the regions that are open besides the root, each a grammar and the token that
opened it (`Polylex.Regions.Open`). The action of a token changes the stack in one of few ways
(`Polylex.Regions.Acts`): entering pushes, unless the grammar is open already and not
reentrant, or the stack is full; leaving pops, unless only the root is open; switching does
both. A *play* (`Polylex.Regions.Plays`) goes through a text in this way, every token being the
one that the scanner of the grammar on top finds where the token before ended.

Every run is a play (`Polylex.Session.runRange_replays_regions`). Two things then follow from
the moves alone, by induction on a play:

* **The stack is balanced.** What has been pushed has been popped, or it is on the stack at
  the end (`Polylex.Regions.Plays.balance`).
* **The stack is ordered.** A region is opened behind the regions around it, since its token
  is not empty (`Polylex.Regions.Plays.nested`).
-/

namespace Polylex

namespace Regions

/-! ### The stack -/

/-- A region that is open besides the root: its grammar, and the token that opened it. -/
structure Open where
  grammar : Grammar
  opener : Span

/-- The grammar in force, which is that of the innermost region. -/
def current (root : Grammar) : List Open → Grammar
  | [] => root
  | r :: _ => r.grammar

/-- The names of the open regions, the innermost first and the root last. -/
def names (root : Grammar) (opened : List Open) : List String :=
  opened.map (·.grammar.id) ++ [root.id]

/-- The report of a region that is not entered because it is open already. -/
def alreadyActive (id inside : String) (token : Span) : Diagnostic :=
  .new .recursiveRegion s!"`{id}` is already active; staying in `{inside}`" token

/-- The report of a region that is not entered because the stack is full. -/
def tooManyRegions (limit : Nat) (id : String) (token : Span) : Diagnostic :=
  .new .nestingLimit s!"region depth limit of {limit} reached; `{id}` not entered" token

/-- The report of a region that is open at the end of the text. -/
def neverClosed (stop : Nat) (r : Open) : Diagnostic :=
  (Diagnostic.new .unterminatedRegion s!"`{r.grammar.id}` region is never closed"
      ⟨r.opener.stop, stop⟩).withRelated
    "region opened here" r.opener

/-! ### Moves -/

section Moves

variable (set : GrammarSet) (root : Grammar) (limit : Nat)

/-- **Entering the region of a grammar** after a token: whether it is pushed, what is reported,
and the stack afterwards. -/
inductive Enters (id : String) (token : Span) (opened : List Open) :
    (pushed : Bool) → List Diagnostic → List Open → Prop
  | accepted {g : Grammar} (known : set.get? id = some g)
      (free : g.reentrant = true ∨ id ∉ names root opened)
      (room : (names root opened).length < max 1 limit) :
      Enters id token opened true [] (⟨g, token⟩ :: opened)
  /-- The grammar is open already and may not be open twice. -/
  | alreadyActive {g : Grammar} (known : set.get? id = some g) (once : g.reentrant = false)
      (active : id ∈ names root opened) :
      Enters id token opened false [alreadyActive id (current root opened).id token] opened
  /-- There are as many regions as there may be. -/
  | full {g : Grammar} (known : set.get? id = some g)
      (free : g.reentrant = true ∨ id ∉ names root opened)
      (full : max 1 limit ≤ (names root opened).length) :
      Enters id token opened false [tooManyRegions (max 1 limit) id token] opened

/-- **Leaving the innermost region**: whether it is popped, and the stack afterwards. -/
inductive Leaves : List Open → (popped : Bool) → List Open → Prop
  /-- The root is never left. -/
  | atRoot : Leaves [] false []
  | pop (r : Open) (rest : List Open) : Leaves (r :: rest) true rest

/-- **The action of a token**: whether a region is pushed and whether one is popped, what is
reported, and the stack afterwards. -/
inductive Acts (token : Span) (opened : List Open) :
    Option RegionAction → (pushed popped : Bool) → List Diagnostic → List Open → Prop
  | nothing : Acts token opened none false false [] opened
  | enter {id : String} {pushed : Bool} {ds : List Diagnostic} {next : List Open}
      (enters : Enters set root limit id token opened pushed ds next) :
      Acts token opened (some (.enter id)) pushed false ds next
  | exit {popped : Bool} {next : List Open} (leaves : Leaves opened popped next) :
      Acts token opened (some .exit) false popped [] next
  | switch {id : String} {pushed popped : Bool} {ds : List Diagnostic} {between next : List Open}
      (leaves : Leaves opened popped between)
      (enters : Enters set root limit id token between pushed ds next) :
      Acts token opened (some (.switch id)) pushed popped ds next

/-- A token of a play: the regions that are open in front of it, the token as the scanner
finds it, what the scanner reports, and what its action does and reports. -/
structure Move where
  opened : List Open
  raw : RawToken
  found : List Diagnostic
  pushed : Bool
  popped : Bool
  acted : List Diagnostic

/-- **A play** of the text up to an offset, from some open regions on: the moves, and the
regions that are open at the end. -/
inductive Plays (budget : Nat) (t : Text) (stop : Nat) :
    List Open → Nat → List Move → List Open → Prop
  | done (opened : List Open) : Plays budget t stop opened stop [] opened
  | token {opened next final : List Open} {offset : Nat} {raw : RawToken}
      {pushed popped : Bool} {scanner : Scanner} {acted : List Diagnostic} {moves : List Move}
      (scan : (Scanner.start (current root opened) t offset stop budget).scanOne =
        (some raw, scanner))
      (acts : Acts set root limit raw.span opened raw.action pushed popped acted next)
      (rest : Plays budget t stop next raw.span.stop moves final) :
      Plays budget t stop opened offset
        (⟨opened, raw, scanner.diagnostics, pushed, popped, acted⟩ :: moves) final

end Moves

/-! ### What the moves alone entail -/

variable {set : GrammarSet} {root : Grammar} {limit budget offset stop : Nat} {t : Text}
variable {token : Span} {opened next final : List Open} {pushed popped : Bool}
variable {ds : List Diagnostic} {moves : List Move}

theorem Enters.balance {id : String} (h : Enters set root limit id token opened pushed ds next) :
    pushed.toNat + opened.length = next.length := by
  cases h with
  | accepted _ _ _ => exact Nat.add_comm 1 _
  | alreadyActive _ _ _ => exact Nat.zero_add _
  | full _ _ _ => exact Nat.zero_add _

theorem Leaves.balance (h : Leaves opened popped next) :
    opened.length = popped.toNat + next.length := by
  cases h with
  | atRoot => rfl
  | pop r rest => exact Nat.add_comm _ 1

theorem Acts.balance {action : Option RegionAction}
    (h : Acts set root limit token opened action pushed popped ds next) :
    pushed.toNat + opened.length = popped.toNat + next.length := by
  cases h with
  | nothing => rfl
  | enter enters => rw [enters.balance, Bool.toNat_false, Nat.zero_add]
  | exit leaves => rw [leaves.balance, Bool.toNat_false, Nat.zero_add]
  | switch leaves enters =>
    rw [leaves.balance, ← enters.balance]
    omega

/-- **Pushes and pops balance**, up to the regions at both ends of a play. -/
theorem Plays.balance (h : Plays set root limit budget t stop opened offset moves final) :
    moves.countP (·.pushed) + opened.length = moves.countP (·.popped) + final.length := by
  have hone (b : Bool) : (if b = true then 1 else 0) = b.toNat := by cases b <;> rfl
  induction h with
  | done opened => rfl
  | token scan acts rest ih =>
    have hmove := acts.balance
    rw [List.countP_cons, List.countP_cons, hone, hone]
    dsimp only
    omega

/-- The open regions are behind each other, and all in front of an offset. -/
def Nested (offset : Nat) (opened : List Open) : Prop :=
  (opened.map (·.opener.stop)).Pairwise (· > ·) ∧ ∀ r ∈ opened, r.opener.stop ≤ offset

theorem Nested.tail {r : Open} {rest : List Open} (h : Nested offset (r :: rest)) :
    Nested offset rest := by
  obtain ⟨hsorted, hle⟩ := h
  exact ⟨(List.pairwise_cons.mp hsorted).2, (List.forall_mem_cons.mp hle).2⟩

theorem Nested.mono {later : Nat} (h : Nested offset opened) (hle : offset ≤ later) :
    Nested later opened :=
  ⟨h.1, fun r hr => Nat.le_trans (h.2 r hr) hle⟩

theorem Nested.leaves (h : Nested offset opened) (hleaves : Leaves opened popped next) :
    Nested offset next := by
  cases hleaves with
  | atRoot => exact h
  | pop r rest => exact h.tail

/-- The token that opens a region ends behind the regions around it. -/
theorem Nested.enters {id : String} (h : Nested offset opened) (hlt : offset < token.stop)
    (henters : Enters set root limit id token opened pushed ds next) :
    Nested token.stop next := by
  cases henters with
  | accepted _ _ _ =>
    refine ⟨List.pairwise_cons.mpr ⟨?_, h.1⟩,
      List.forall_mem_cons.mpr ⟨Nat.le_refl _, (h.mono (Nat.le_of_lt hlt)).2⟩⟩
    intro earlier hmem
    obtain ⟨r, hr, rfl⟩ := List.mem_map.mp hmem
    exact Nat.lt_of_le_of_lt (h.2 r hr) hlt
  | alreadyActive _ _ _ => exact h.mono (Nat.le_of_lt hlt)
  | full _ _ _ => exact h.mono (Nat.le_of_lt hlt)

theorem Nested.acts {action : Option RegionAction} (h : Nested offset opened)
    (hlt : offset < token.stop)
    (hacts : Acts set root limit token opened action pushed popped ds next) :
    Nested token.stop next := by
  cases hacts with
  | nothing => exact h.mono (Nat.le_of_lt hlt)
  | enter enters => exact h.enters hlt enters
  | exit leaves => exact (h.leaves leaves).mono (Nat.le_of_lt hlt)
  | switch leaves enters => exact (h.leaves leaves).enters hlt enters

/-- The token that a scanner finds starts where the scanner starts. -/
theorem start_of_scanOne {g : Grammar} {raw : RawToken} {scanner : Scanner}
    (h : (Scanner.start g t offset stop budget).scanOne = (some raw, scanner)) :
    raw.span.start = offset := by
  rw [Scanner.scanOne] at h
  split at h
  · cases h
  · cases h
    rfl

/-- **Regions are opened behind each other**, if no token is empty. -/
theorem Plays.nested (h : Plays set root limit budget t stop opened offset moves final)
    (hmoves : ∀ m ∈ moves, m.raw.span.start < m.raw.span.stop) (hopened : Nested offset opened) :
    Nested stop final := by
  induction h with
  | done opened => exact hopened
  | token scan acts rest ih =>
    obtain ⟨hlt, hmoves⟩ := List.forall_mem_cons.mp hmoves
    rw [start_of_scanOne scan] at hlt
    exact ih hmoves (hopened.acts hlt acts)

/-! ### Every run is a play -/

/-- The region as a run keeps it. -/
def Open.toRegion (r : Open) : Region := Region.opened r.grammar r.opener.stop r.opener

/-- The stack as a run keeps it, whose root starts at an offset. -/
def toStack (root : Grammar) (start limit : Nat) (opened : List Open) : RegionStack :=
  ⟨Region.opened root start (Span.point start), opened.map Open.toRegion, max 1 limit⟩

variable {start : Nat}

theorem toStack_nil : toStack root start limit [] = RegionStack.start root start limit := rfl

theorem current_toStack (root : Grammar) (start limit : Nat) (opened : List Open) :
    (toStack root start limit opened).current = current root opened := by
  cases opened <;> rfl

theorem depth_toStack (opened : List Open) :
    (toStack root start limit opened).depth = (names root opened).length := by
  simp [RegionStack.depth, toStack, names]

theorem contains_toStack {id : String} :
    (toStack root start limit opened).contains id = true ↔ id ∈ names root opened := by
  have hnames : names root opened = (opened.map Open.toRegion).map (·.id) ++ [root.id] := by
    rw [names, List.map_map]
    rfl
  rw [RegionStack.contains, Bool.or_eq_true, List.any_eq_true, hnames, List.mem_append,
    List.mem_singleton, List.mem_map]
  simp only [toStack, Region.opened, Region.id, beq_iff_eq]
  rw [or_comm]
  exact or_congr Iff.rfl eq_comm

theorem exists_leaves (root : Grammar) (start limit : Nat) (opened : List Open) (offset : Nat) :
    ∃ popped next, Leaves opened popped next ∧
      Run.leave (toStack root start limit opened) offset = toStack root start limit next := by
  cases opened with
  | nil => exact ⟨false, [], .atRoot, rfl⟩
  | cons r rest => exact ⟨true, rest, .pop r rest, rfl⟩

/-- What entering the region of a known grammar does to the stack of a run. -/
theorem exists_enters (root : Grammar) (start limit : Nat) (opened : List Open) {id : String}
    {g : Grammar} (hget : set.get? id = some g) (token : Span) :
    ∃ pushed ds next, Enters set root limit id token opened pushed ds next ∧
      Run.enter set (toStack root start limit opened) id token =
        ⟨ds, .ok (toStack root start limit next)⟩ := by
  have hid := GrammarSet.id_of_get? hget
  rw [Run.enter, Run.lookup_eq hget, Traced.value, Traced.bind_ok, RegionStack.push, hid,
    depth_toStack]
  by_cases hactive : (!g.reentrant && (toStack root start limit opened).contains id) = true
  · obtain ⟨honce, hmem⟩ : g.reentrant = false ∧ id ∈ names root opened := by
      rw [Bool.and_eq_true, contains_toStack] at hactive
      exact ⟨by simpa using hactive.1, hactive.2⟩
    rw [if_pos hactive]
    refine ⟨false, _, opened, .alreadyActive hget honce hmem, ?_⟩
    rw [← current_toStack root start limit opened]
    rfl
  · have hfree : g.reentrant = true ∨ id ∉ names root opened := by
      rw [Bool.and_eq_true, contains_toStack, not_and_or] at hactive
      exact hactive.imp_left (by simp)
    rw [if_neg hactive]
    by_cases hfull : max 1 limit ≤ (names root opened).length
    · refine ⟨false, _, opened, .full hget hfree hfull, ?_⟩
      have hlimit : (toStack root start limit opened).limit = max 1 limit := rfl
      rw [hlimit, if_pos hfull]
      rfl
    · refine ⟨true, [], _, .accepted hget hfree (Nat.lt_of_not_le hfull), ?_⟩
      have hlimit : (toStack root start limit opened).limit = max 1 limit := rfl
      rw [hlimit, if_neg hfull]
      rfl

/-- **The action of a token, as a run applies it**, is one of the moves. -/
theorem acts_of_act_eq {action : Option RegionAction} {acted : List Diagnostic}
    {stack : RegionStack}
    (h : Run.act set (toStack root start limit opened) token action = ⟨acted, .ok stack⟩) :
    ∃ pushed popped next, stack = toStack root start limit next ∧
      Acts set root limit token opened action pushed popped acted next := by
  have hknown {stack' : RegionStack} {id : String}
      (henter : Run.enter set stack' id token = ⟨acted, .ok stack⟩) :
      ∃ g, set.get? id = some g := by
    rw [Run.enter, Run.lookup] at henter
    cases hget : set.get? id with
    | none =>
      rw [hget] at henter
      cases henter
    | some g => exact ⟨g, rfl⟩
  cases action with
  | none =>
    cases h
    exact ⟨false, false, opened, rfl, .nothing⟩
  | some action =>
    cases action with
    | enter id =>
      obtain ⟨g, hget⟩ := hknown h
      obtain ⟨pushed, ds, next, henters, heq⟩ :=
        exists_enters root start limit opened hget token
      obtain ⟨rfl, rfl⟩ : ds = acted ∧ toStack root start limit next = stack := by
        simpa using heq.symm.trans h
      exact ⟨pushed, false, next, rfl, .enter henters⟩
    | exit =>
      obtain ⟨popped, next, hleaves, heq⟩ :=
        exists_leaves root start limit opened token.stop
      rw [Run.act, heq] at h
      cases h
      exact ⟨false, popped, next, rfl, .exit hleaves⟩
    | switch id =>
      obtain ⟨popped, between, hleaves, hleave⟩ :=
        exists_leaves root start limit opened token.stop
      rw [Run.act, hleave] at h
      obtain ⟨g, hget⟩ := hknown h
      obtain ⟨pushed, ds, next, henters, heq⟩ :=
        exists_enters root start limit between hget token
      obtain ⟨rfl, rfl⟩ : ds = acted ∧ toStack root start limit next = stack := by
        simpa using heq.symm.trans h
      exact ⟨pushed, popped, next, rfl, .switch hleaves henters⟩

/-- What is reported about a token: what the scanner reports, what the expressions of its
zones report on their own, in the order of the zones, and what its action reports. -/
def Move.reports (s : Session) (t : Text) (root : Grammar) (depth : Nat) (m : Move) :
    List Diagnostic :=
  m.found ++
    m.raw.zones.flatMap (fun z =>
      (s.alone t (current root m.opened) depth z).2.diagnostics.map (·.shift z.bodyStart)) ++
    m.acted

/-- The step of a run that a move is. -/
def Move.toStep (root : Grammar) (start limit : Nat) (m : Move) : Run.Step :=
  ⟨toStack root start limit m.opened, m.raw, m.found, m.acted⟩

theorem composedReports_toStep (s : Session) (t : Text) (root : Grammar) (start limit depth : Nat)
    (m : Move) :
    s.composedReports t depth (m.toStep root start limit) = m.reports s t root depth := by
  rw [Session.composedReports, Move.reports, Move.toStep, current_toStack]

/-- **A replay of a run is a play.** -/
theorem exists_plays {steps : List Run.Step} {stack : RegionStack}
    (h : Run.Replay set budget t stop (toStack root start limit opened) offset steps stack) :
    ∃ moves final, stack = toStack root start limit final ∧
      steps = moves.map (·.toStep root start limit) ∧
      Plays set root limit budget t stop opened offset moves final := by
  generalize hfrom : toStack root start limit opened = before at h
  induction h generalizing opened with
  | done before => exact ⟨[], opened, hfrom.symm, rfl, .done opened⟩
  | token scan act rest ih =>
    subst hfrom
    obtain ⟨pushed, popped, next, rfl, hacts⟩ := acts_of_act_eq act
    obtain ⟨moves, final, hfinal, hsteps, hplays⟩ := ih rfl
    rw [current_toStack] at scan
    exact ⟨_ :: moves, final, hfinal, congrArg (_ :: ·) hsteps, .token scan hacts hplays⟩

/-- The reports of a run about the regions that are open at its end. -/
theorem unclosed_toStack (final : List Open) (stop : Nat) :
    ((toStack root start limit final).closeAll stop).1.map (Run.unclosedDiagnostic stop) =
      final.map (neverClosed stop) := by
  rw [RegionStack.closeAll, toStack, List.map_map, List.map_map]
  rfl

end Regions

/-! ### Runs over a range -/

namespace Session

variable {s : Session} {t : Text} {root : Grammar} {span : Span} {depth : Nat}

/-- **A run over a span replays on a stack of regions.** It completes; its tokens are those of
a play of the span that starts with the root alone; it reports move by move, and then once
for every region that is still open, the innermost first. What has been pushed has been
popped or is reported at the end, and those reports start further and further to the
front. -/
def ReplaysRegions (s : Session) (t : Text) (root : Grammar) (span : Span) (depth : Nat) : Prop :=
  ∃ (moves : List Regions.Move) (final : List Regions.Open) (tokens : List Token),
    Regions.Plays s.grammars root s.options.maxRegionDepth
      (s.options.maxInterpolationDepth - depth) t span.stop [] span.start moves final ∧
    s.runRange t root span depth =
      (.ok tokens,
        { s with
          diagnostics := s.diagnostics ++ (moves.flatMap (·.reports s t root depth) ++
            final.map (Regions.neverClosed span.stop)) }) ∧
    tokens.map (fun u => (u.kind, u.span)) = moves.map (fun m => (m.raw.kind, m.raw.span)) ∧
    moves.countP (·.pushed) =
      moves.countP (·.popped) + (final.map (Regions.neverClosed span.stop)).length ∧
    ((final.map (Regions.neverClosed span.stop)).map (·.span.start)).Pairwise (· > ·)

/-- Only a run at depth zero can be cancelled. -/
theorem not_cancelled (hcancel : depth = 0 → s.isCancelled = false) :
    (depth == 0 && s.isCancelled) = false := by
  by_cases hdepth : depth = 0
  · rw [hcancel hdepth, Bool.and_false]
  · rw [beq_false_of_ne hdepth, Bool.false_and]

/-- A run over a range has a replay: its tokens are those of the steps, none of which is
empty, and it reports step by step, with the reports of the expressions as they are on their
own, and then closes the regions that are open. -/
theorem exists_replay_runRange (hs : s.grammars.Valid) (hroot : root ∈ s.grammars.grammars)
    (hspan : t.IsRange span) (hcancel : depth = 0 → s.isCancelled = false) :
    ∃ (steps : List Run.Step) (final : RegionStack) (tokens : List Token),
      Run.Replay s.grammars (s.options.maxInterpolationDepth - depth) t span.stop
        (RegionStack.start root span.start s.options.maxRegionDepth) span.start steps final ∧
      (∀ step ∈ steps, step.raw.span.start < step.raw.span.stop) ∧
      s.runRange t root span depth =
        (.ok tokens,
          { s with
            diagnostics := s.diagnostics ++ (steps.flatMap (s.composedReports t depth) ++
              (final.closeAll span.stop).1.map (Run.unclosedDiagnostic span.stop)) }) ∧
      tokens.map (fun u => (u.kind, u.span)) =
        steps.map (fun step => (step.raw.kind, step.raw.span)) := by
  obtain ⟨hat, hstop⟩ := hspan.at
  generalize hbudget : s.options.maxInterpolationDepth - depth = budget
  obtain ⟨steps, final, hreplay, hsteps, hrun⟩ := Run.exists_replay budget hs
    (RegionStack.within_start span.start s.options.maxRegionDepth hroot) hat
  obtain ⟨hforest, -⟩ := hrun _ (Run.tiling_below hs s.options.maxRegionDepth)
  rw [← hstop] at hreplay hforest
  have hreports : steps.flatMap (·.reports s.grammars
      (Run.below s.grammars s.options.maxRegionDepth budget)) =
      steps.flatMap (s.composedReports t depth) := by
    refine List.flatMap_congr fun step hstep => ?_
    obtain ⟨m, hplaced⟩ := hsteps step hstep
    exact composedReports_eq s hbudget.symm hplaced
  refine ⟨steps, final, steps.map
    (·.token s.grammars (Run.below s.grammars s.options.maxRegionDepth budget)), hreplay,
    ?_, ?_, ?_⟩
  · intro step hstep
    obtain ⟨m, hplaced⟩ := hsteps step hstep
    rw [hplaced.span_eq]
    exact Nat.lt_add_of_pos_right (Text.width_pos hplaced.ne_nil)
  · rw [runRange_eq, trace, not_cancelled hcancel, hbudget, Run.forest_eq, hforest, hreports]
  · rw [List.map_map]
    rfl

/-- **Every run replays on a stack of regions.** With a set that has been built, this holds of
every run over a range of a text that is rooted at a grammar of the set and is not cancelled,
at any depth. -/
theorem runRange_replays_regions {grammars : List Grammar}
    (hbuild : GrammarSet.build grammars = .ok s.grammars) (hroot : root ∈ s.grammars.grammars)
    (hspan : t.IsRange span) (hcancel : depth = 0 → s.isCancelled = false) :
    s.ReplaysRegions t root span depth := by
  obtain ⟨steps, stack, tokens, hreplay, hpos, hrun, htokens⟩ :=
    exists_replay_runRange (GrammarSet.valid_of_build hbuild) hroot hspan hcancel
  rw [← Regions.toStack_nil] at hreplay
  obtain ⟨moves, final, rfl, rfl, hplays⟩ := Regions.exists_plays hreplay
  have hmoves : ∀ m ∈ moves, m.raw.span.start < m.raw.span.stop :=
    fun m hm => hpos _ (List.mem_map_of_mem hm)
  have hreports : (moves.map (·.toStep root span.start s.options.maxRegionDepth)).flatMap
      (s.composedReports t depth) = moves.flatMap (·.reports s t root depth) := by
    rw [List.flatMap_map]
    exact List.flatMap_congr fun m _ => Regions.composedReports_toStep s t root _ _ depth m
  rw [hreports, Regions.unclosed_toStack] at hrun
  refine ⟨moves, final, tokens, hplays, hrun, ?_, ?_, ?_⟩
  · rw [htokens, List.map_map]
    rfl
  · rw [List.length_map, ← hplays.balance, List.length_nil, Nat.add_zero]
  · -- The report about a region starts where its token ends.
    have hnested : Regions.Nested span.stop final :=
      hplays.nested hmoves ⟨List.Pairwise.nil, fun r hr => nomatch hr⟩
    rw [List.map_map]
    exact hnested.1

/-- The case of a grammar of parentheses that opens a region for each of them, with no more
than two regions at once, behind a character that is not in the range. In `((()(` the first
parenthesis opens a region, the next two are refused, the closing one leaves the region, and
the last one opens a region that is never closed. -/
theorem runRange_replays_regions_parentheses :
    let p : Grammar := ⟨"p", [⟨.punctuation, .literal ['('], some (.enter "p")⟩,
      ⟨.punctuation, .literal [')'], some .exit⟩], true⟩
    let s : Session := { grammars := ⟨[p]⟩, options := { maxRegionDepth := 2 } }
    let t : Text := ['x', '(', '(', '(', ')', '(']
    GrammarSet.build [p] = .ok s.grammars ∧ s.ReplaysRegions t p ⟨1, 6⟩ 0 ∧
      s.runRange t p ⟨1, 6⟩ 0 =
        (.ok [.leaf .punctuation ⟨1, 2⟩, .leaf .punctuation ⟨2, 3⟩, .leaf .punctuation ⟨3, 4⟩,
          .leaf .punctuation ⟨4, 5⟩, .leaf .punctuation ⟨5, 6⟩],
        { s with
          diagnostics := [Regions.tooManyRegions 2 "p" ⟨2, 3⟩, Regions.tooManyRegions 2 "p" ⟨3, 4⟩,
            Regions.neverClosed 6 ⟨p, ⟨5, 6⟩⟩] }) := by
  intro p s t
  have hbuild : GrammarSet.build [p] = .ok s.grammars := rfl
  have hspan : t.IsRange ⟨1, 6⟩ := Text.isRange_iff_exists.mpr ⟨['x'], t.drop 1, [], rfl, rfl⟩
  refine ⟨hbuild, runRange_replays_regions hbuild List.mem_cons_self hspan fun _ => rfl, ?_⟩
  rw [runRange_eq]
  rfl

end Session

end Polylex
