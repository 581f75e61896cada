import Polylex.Proofs.FirstMatch
import Polylex.Proofs.Literal.Standing
import Polylex.Proofs.Run.Forest

/-!
# What a run does in a session

A run goes on with the session as it finds it: it looks up grammars and options, looks at the
signal, and adds to the reports at all levels, until it comes to its end or fails. This file says
that it *traces* what `Polylex.Session.trace` returns and reports (`Polylex.SessionM.Traces`): its
value or error does not depend on what has been reported before, and what it reports is put behind
that, also if it fails midway (`Polylex.Session.runRange_eq`).

Each of the functions of a run traces its counterpart in `Polylex.Run`. Three things are different
there, and have to be shown to make no difference.

* **The loops.** A run scans up to a token that acts, and then starts a scanner anew; its
  counterpart takes one token after the other from the grammar in force. Between two tokens that
  act the grammar in force does not change, so the loop inside and the loop outside are one
  (`Polylex.SessionM.traces_goOn`, `Polylex.SessionM.traces_complete`).
* **The texts of expressions.** A run goes to the expression of a zone by its span in the whole
  text, and its counterpart takes the expression from the zone
  (`Polylex.SessionM.traces_expressionTokens`).
* **The error of the regions.** To leave a region could fail, but is only asked for where there is
  a region to leave (`Polylex.SessionM.traces_leave`), and entering a region is refused in no other
  way than those that are reported. So no run fails because of its regions
  (`Polylex.Session.runRange_ne_region`).
-/

namespace Polylex

variable {α β : Type} {k : Session}

namespace SessionM

/-- **What is done in a session traces a computation** if it gives the value or the error of the
computation and adds its reports to those of the session, whatever has been reported before. -/
def Traces (k : Session) (x : SessionM α) (y : Traced α) : Prop :=
  ∀ ds, x.run.run { k with diagnostics := ds } =
    (y.outcome, { k with diagnostics := ds ++ y.diagnostics })

section Composition

variable {x : SessionM α} {y : Traced α} {f : α → SessionM β} {g : α → Traced β}

theorem run_bind (x : SessionM α) (f : α → SessionM β) (s : Session) :
    (x >>= f).run.run s =
      match x.run.run s with
      | (.ok a, s) => (f a).run.run s
      | (.error e, s) => (.error e, s) := by
  rw [ExceptT.run_bind, StateT.run_bind]
  rcases x.run.run s with ⟨a | e, s⟩ <;> rfl

theorem traces_pure (a : α) : Traces k (pure a) (pure a) := by
  intro ds
  rw [Traced.pure_eq, List.append_nil]
  rfl

theorem traces_throw (e : TokenizeError) : Traces k (throw e : SessionM α) (.fail e) := by
  intro ds
  rw [Traced.fail, List.append_nil]
  rfl

theorem traces_report (ds : List Diagnostic) : Traces k (report ds) (.report ds) := fun _ => rfl

/-- What is done one after the other traces the computations one after the other. -/
theorem Traces.bind (hx : Traces k x y) (hf : ∀ a, y.outcome = .ok a → Traces k (f a) (g a)) :
    Traces k (x >>= f) (y >>= g) := by
  intro ds
  rw [run_bind, hx ds]
  obtain ⟨found, outcome⟩ := y
  cases outcome with
  | error e => rfl
  | ok a =>
    rw [Traced.bind_ok, ← List.append_assoc]
    exact hf a rfl (ds ++ found)

/-- What is done with the session as it is found. -/
theorem traces_get {f : Session → SessionM α}
    (h : ∀ ds, Traces k (f { k with diagnostics := ds }) y) : Traces k (get >>= f) y := by
  intro ds
  rw [run_bind]
  exact h ds ds

end Composition

/-! ### Grammars, the signal and regions -/

variable {stack : RegionStack}

theorem traces_lookup (id : String) : Traces k (lookup id) (Run.lookup k.grammars id) := by
  refine traces_get fun ds => ?_
  have hgrammar : ({ k with diagnostics := ds } : Session).grammar id = k.grammar id := rfl
  rw [hgrammar, Session.grammar, Run.lookup]
  cases k.grammars.get? id with
  | some g => exact traces_pure g
  | none => exact traces_throw _

theorem traces_checkSignal :
    Traces k checkSignal (if k.isCancelled then .fail .cancelled else pure ()) := by
  refine traces_get fun ds => ?_
  have hsignal : ({ k with diagnostics := ds } : Session).isCancelled = k.isCancelled := rfl
  rw [hsignal]
  cases k.isCancelled with
  | true => exact traces_throw _
  | false => exact traces_pure ()

/-- In a document the signal is looked at first. -/
theorem traces_signal {x : SessionM α} {y : Traced α} {document : Bool} (h : Traces k x y) :
    Traces k
      (do
        if document then checkSignal
        x)
      (do
        if document && k.isCancelled then Traced.fail .cancelled
        y) := by
  cases document with
  | false => exact h
  | true =>
    have hchecked := traces_checkSignal.bind fun _ _ => h
    cases hcancelled : k.isCancelled with
    | true =>
      rw [hcancelled] at hchecked
      exact hchecked
    | false =>
      rw [hcancelled] at hchecked
      exact hchecked

theorem traces_enter (id : String) (opener : Span) :
    Traces k (enter stack id opener) (Run.enter k.grammars stack id opener) := by
  refine (traces_lookup id).bind fun g _ => ?_
  cases stack.push g opener.stop opener with
  | ok next => exact traces_pure next
  | error e =>
    cases e with
    | unbalanced depth => exact traces_throw _
    | «recursive» id => exact (traces_report _).bind fun _ _ => traces_pure stack
    | depthLimit limit => exact (traces_report _).bind fun _ _ => traces_pure stack

/-- **A region is left only if there is one**, so this does not fail. -/
theorem traces_leave (offset : Nat) :
    Traces k (leave stack offset) (pure (Run.leave stack offset)) := by
  obtain ⟨root, nested, limit⟩ := stack
  cases nested with
  | nil => exact traces_pure _
  | cons r rest => exact traces_pure _

theorem traces_act (token : Span) (action : Option RegionAction) :
    Traces k (act stack token action) (Run.act k.grammars stack token action) := by
  cases action with
  | none => exact traces_pure stack
  | some action =>
    cases action with
    | enter id => exact traces_enter id token
    | exit => exact traces_leave token.stop
    | switch id =>
      have hswitch : Run.act k.grammars stack token (some (.switch id)) =
          pure (Run.leave stack token.stop) >>= fun next => Run.enter k.grammars next id token := by
        simp [Run.act]
      rw [hswitch]
      exact (traces_leave token.stop).bind fun next _ => traces_enter id token

/-- Reporting one after the other is reporting all. -/
theorem traces_forM_report {γ : Type} (f : γ → Diagnostic) (as : List γ) :
    Traces k (as.forM fun a => report [f a]) (.report (as.map f)) := by
  induction as with
  | nil => exact traces_pure ()
  | cons a as ih =>
    have hcons : Traced.report ((a :: as).map f) =
        (Traced.report [f a] >>= fun _ => Traced.report (as.map f)) := rfl
    rw [hcons]
    exact (traces_report [f a]).bind fun _ _ => ih

theorem traces_closeOut (stop : Nat) :
    Traces k (closeOut stack stop) (Run.closeOut stack stop) :=
  traces_forM_report (Run.unclosedDiagnostic stop) (stack.closeAll stop).1

/-! ### Zones -/

/-- What is done with expressions traces runs over their texts. -/
def Embedded.Traces (k : Session) (embedded : Embedded) (trace : Run.Embedded) : Prop :=
  ∀ g w, SessionM.Traces k (embedded g w) (trace g w.cursor w.rest)

section Embedding

variable {embedded : Embedded} {trace : Run.Embedded} {w : Window}

/-- **The expression of a zone is run where it stands.** -/
theorem traces_expressionTokens (h : embedded.Traces k trace) (host : Grammar) {z : Zone}
    (hz : z.StandsIn w.cursor w.rest) :
    Traces k (expressionTokens embedded host w z)
      (Run.expressionTokens k.grammars trace host z) := by
  rw [expressionTokens, Run.expressionTokens]
  split
  · exact traces_pure []
  · have hexpression (g : Grammar) :
        Traces k (embedded g (w.focus z.bodySpan)) (trace g z.bodyStart z.body) := by
      have hrun := h g (w.focus z.bodySpan)
      rwa [Window.rest_focus hz] at hrun
    cases z.grammar with
    | some id => exact (traces_lookup id).bind fun g _ => hexpression g
    | none => exact (traces_pure host).bind fun g _ => hexpression g

theorem traces_childrenFrom (h : embedded.Traces k trace) (host : Grammar) (kind : TokenKind)
    (stop offset : Nat) {zones : List Zone} (hzones : ∀ z ∈ zones, z.StandsIn w.cursor w.rest) :
    Traces k (childrenFrom embedded host w kind stop offset zones)
      (Run.childrenFrom k.grammars trace host kind stop offset zones) := by
  induction zones generalizing offset with
  | nil => exact traces_pure _
  | cons z zones ih =>
    obtain ⟨hz, hzones⟩ := List.forall_mem_cons.mp hzones
    refine (traces_expressionTokens h host hz).bind fun inner _ => ?_
    exact (ih z.stop hzones).bind fun after _ => traces_pure _

theorem traces_splice (h : embedded.Traces k trace) (host : Grammar) {raw : RawToken}
    (hzones : ∀ z ∈ raw.zones, z.StandsIn w.cursor w.rest) :
    Traces k (splice embedded host w raw) (Run.splice k.grammars trace host raw) := by
  rw [splice, Run.splice]
  split
  · exact traces_pure _
  · exact (traces_childrenFrom h host raw.kind _ _ hzones).bind fun children _ => traces_pure _

end Embedding

/-! ### The loops -/

section Loops

variable (embedded : Embedded) (document : Bool) (budget stop : Nat)

/-- The rest of a run at a place: scanners are started up to the end, and the regions that are open
there are reported. -/
def complete (steps : Nat) (w : Window) (stack : RegionStack) : SessionM (List Token) := do
  let (tokens, stack) ← reseat embedded document budget steps w stack
  closeOut stack stop
  pure tokens

/-- The rest of a run with a scanner: it is asked for its tokens, and the run is completed where it
ends. -/
def goOn (asked steps : Nat) (scanner : Scanner) (stack : RegionStack) : SessionM (List Token) := do
  let (tokens, scanner, stack) ← drain embedded document asked scanner stack
  let more ← complete embedded document budget stop steps scanner.toWindow stack
  pure (tokens ++ more)

variable {embedded document budget stop} {w : Window} {scanner behind : Scanner} {raw : RawToken}

theorem complete_of_rest_eq_nil (steps : Nat) (h : w.rest = []) :
    complete embedded document budget stop steps w stack = (do
      closeOut stack stop
      pure []) := by
  cases steps <;> simp [complete, reseat, h]

/-- **Behind a token that acts a scanner is started anew.** -/
theorem complete_succ (steps : Nat) (h : w.rest ≠ []) :
    complete embedded document budget stop (steps + 1) w stack =
      goOn embedded document budget stop w.rest.length steps
        (Scanner.ofWindow stack.current w budget) stack := by
  simp [complete, goOn, reseat, h]

theorem goOn_of_next_eq_none (asked steps : Nat) (h : scanner.next = (none, scanner)) :
    goOn embedded document budget stop asked steps scanner stack =
      complete embedded document budget stop steps scanner.toWindow stack := by
  cases asked <;> simp [goOn, drain, h]

theorem goOn_of_next_eq_some (asked steps : Nat) (h : scanner.next = (some raw, behind)) :
    goOn embedded document budget stop (asked + 1) steps scanner stack = (do
      if document then checkSignal
      report behind.diagnostics
      let token ← splice embedded scanner.grammar scanner.toWindow raw
      let stack ← act stack raw.span raw.action
      let tokens ← goOn embedded document budget stop asked steps
        { behind with diagnostics := [] } stack
      pure (token :: tokens)) := by
  cases document <;> simp [goOn, drain, h, Scanner.takeDiagnostics]

variable {trace : Run.Embedded}

/-- **One turn of the loop over a text**, as a scanner makes it. -/
theorem forestFrom_of_ne_nil {grammars : GrammarSet} {cancelled : Bool} (w : Window)
    (h : w.rest ≠ []) :
    Run.forestFrom grammars budget trace cancelled 0 stack w.cursor w.rest = (do
      if cancelled then Traced.fail .cancelled
      let found := stack.current.firstMatch budget w.cursor w.rest
      let raw := RawToken.ofMatch found w.cursor w.rest
      Traced.report found.diagnostics
      let token ← Run.splice grammars trace stack.current raw
      let stack ← Run.act grammars stack raw.span raw.action
      let tokens ← Run.forestFrom grammars budget trace cancelled 0 stack
        (w.advance found.length).cursor (w.advance found.length).rest
      pure (token :: tokens)) := by
  obtain ⟨before, offset, t⟩ := w
  obtain ⟨c, t, rfl⟩ := List.exists_cons_of_ne_nil h
  obtain ⟨n, hn⟩ := Nat.exists_eq_add_one.mpr
    (stack.current.length_firstMatch_pos budget offset (c :: t))
  cases cancelled with
  | true => rfl
  | false =>
    have hrest (next : RegionStack) :
        Run.forestFrom grammars budget trace false n next (offset + c.utf8Size) t =
          Run.forestFrom grammars budget trace false 0 next
            (offset + Text.width ((c :: t).take (n + 1))) ((c :: t).drop (n + 1)) := by
      rw [Run.forestFrom_skip, List.take_succ_cons, Text.width_cons, Nat.add_assoc,
        List.drop_succ_cons]
    rw [Run.forestFrom]
    simp only [Window.advance, hn, Nat.add_sub_cancel, hrest, Bool.false_eq_true, if_false]

/-- What a scanner finds if it is asked for the next token. -/
theorem next_of_rest_ne_nil {s : Scanner} (hrest : s.rest ≠ []) (hboundary : s.atBoundary = false) :
    s.next =
      (let found := s.grammar.firstMatch s.budget s.cursor s.rest
       let raw := RawToken.ofMatch found s.cursor s.rest
       (some raw,
        { s with
          toWindow := s.toWindow.advance found.length
          atBoundary := raw.isBoundary
          diagnostics := s.diagnostics ++ found.diagnostics })) := by
  rw [Scanner.next, hboundary, if_neg Bool.false_ne_true, Scanner.scanOne_of_rest_ne_nil hrest]

theorem next_of_rest_eq_nil (hrest : scanner.rest = []) : scanner.next = (none, scanner) := by
  rw [Scanner.next, Scanner.scanOne_of_rest_eq_nil hrest]
  split <;> rfl

theorem next_of_atBoundary (hboundary : scanner.atBoundary = true) :
    scanner.next = (none, scanner) := by
  rw [Scanner.next, if_pos hboundary]

/-- **With a scanner the run goes on as its trace does**, if it does so wherever a scanner is
started behind. -/
theorem traces_goOn (hembedded : embedded.Traces k trace) {steps : Nat}
    (hcomplete : ∀ w stack, w.rest.length ≤ steps → w.limit = stop →
      Traces k (complete embedded document budget stop steps w stack)
        (Run.forestFrom k.grammars budget trace (document && k.isCancelled) 0 stack w.cursor
          w.rest))
    {asked : Nat} {w : Window} (hasked : w.rest.length ≤ asked) (hsteps : w.rest.length ≤ steps + 1)
    (hstop : w.limit = stop) :
    Traces k
      (goOn embedded document budget stop asked steps (Scanner.ofWindow stack.current w budget)
        stack)
      (Run.forestFrom k.grammars budget trace (document && k.isCancelled) 0 stack w.cursor
        w.rest) := by
  induction asked generalizing w with
  | zero =>
    have hnil : w.rest = [] := List.length_eq_zero_iff.mp (Nat.le_zero.mp hasked)
    rw [goOn_of_next_eq_none _ _ (next_of_rest_eq_nil hnil)]
    refine hcomplete w stack ?_ hstop
    rw [hnil]
    exact Nat.zero_le _
  | succ asked ih =>
    by_cases hrest : w.rest = []
    · rw [goOn_of_next_eq_none _ _ (next_of_rest_eq_nil hrest)]
      refine hcomplete w stack ?_ hstop
      rw [hrest]
      exact Nat.zero_le _
    have hnext := next_of_rest_ne_nil (s := Scanner.ofWindow stack.current w budget) hrest rfl
    rw [goOn_of_next_eq_some asked steps hnext, forestFrom_of_ne_nil w hrest]
    dsimp only [Scanner.ofWindow]
    -- Only the length and the zones of the token that is found matter.
    have hpos := stack.current.length_firstMatch_pos budget w.cursor w.rest
    have hzones (z : Zone) (hz : z ∈ (stack.current.firstMatch budget w.cursor w.rest).zones) :
        z.StandsIn w.cursor w.rest := Grammar.standsIn_of_mem_firstMatch hz
    generalize stack.current.firstMatch budget w.cursor w.rest = found at *
    have hshorter : (w.advance found.length).rest.length + 1 ≤ w.rest.length := by
      have hlength := List.length_pos_iff.mpr hrest
      rw [Window.advance, List.length_drop]
      omega
    have hlimit : (w.advance found.length).limit = stop := w.limit_advance _ ▸ hstop
    refine traces_signal ?_
    refine (traces_report found.diagnostics).bind fun _ _ => ?_
    refine (traces_splice hembedded stack.current hzones).bind fun token _ => ?_
    refine (traces_act _ _).bind fun next hnext => ?_
    refine Traces.bind ?_ fun tokens _ => traces_pure (token :: tokens)
    rcases haction : found.action with _ | action
    · -- The regions are as before, so the scanner goes on with the grammar in force.
      obtain rfl : stack = next := by
        rw [RawToken.ofMatch, haction] at hnext
        exact Except.ok.inj hnext
      have hboundary : (RawToken.ofMatch found w.cursor w.rest).isBoundary = false := by
        rw [RawToken.isBoundary, RawToken.ofMatch, haction, Option.isSome_none]
      rw [hboundary]
      exact ih (by omega) (by omega) hlimit
    · have hboundary : (RawToken.ofMatch found w.cursor w.rest).isBoundary = true := by
        rw [RawToken.isBoundary, RawToken.ofMatch, haction, Option.isSome_some]
      rw [goOn_of_next_eq_none _ _ (next_of_atBoundary hboundary)]
      have hbehind : (w.advance found.length).rest.length ≤ steps := by omega
      exact hcomplete (w.advance found.length) next hbehind hlimit

theorem traces_complete_nil {steps : Nat} {w : Window} (hrest : w.rest = [])
    (hstop : w.limit = stop) :
    Traces k (complete embedded document budget stop steps w stack)
      (Run.forestFrom k.grammars budget trace (document && k.isCancelled) 0 stack w.cursor
        w.rest) := by
  have hcursor : w.cursor = stop := by
    rw [← hstop, Window.limit, hrest, Text.width_nil, Nat.add_zero]
  rw [complete_of_rest_eq_nil steps hrest, hrest, hcursor]
  exact (traces_closeOut stop).bind fun _ _ => traces_pure []

/-- **What is left of a run at a place is what its trace has left**: to scan up to a token that
acts, and to start anew behind it, is to take one token after the other. -/
theorem traces_complete (hembedded : embedded.Traces k trace) {steps : Nat} {w : Window}
    (hsteps : w.rest.length ≤ steps) (hstop : w.limit = stop) :
    Traces k (complete embedded document budget stop steps w stack)
      (Run.forestFrom k.grammars budget trace (document && k.isCancelled) 0 stack w.cursor
        w.rest) := by
  induction steps generalizing w stack with
  | zero =>
    exact traces_complete_nil (List.length_eq_zero_iff.mp (Nat.le_zero.mp hsteps)) hstop
  | succ steps ih =>
    by_cases hrest : w.rest = []
    · exact traces_complete_nil hrest hstop
    · rw [complete_succ steps hrest]
      exact traces_goOn hembedded (fun _ _ => ih) (Nat.le_refl _) hsteps hstop

end Loops

/-! ### Levels -/

/-- Tokenizing a text with its own regions. -/
theorem traces_runWith {embedded : Embedded} {trace : Run.Embedded}
    (hembedded : embedded.Traces k trace) (document : Bool) (budget : Nat) (root : Grammar)
    (w : Window) :
    Traces k (runWith embedded document budget root w)
      (Run.forestFrom k.grammars budget trace (document && k.isCancelled) 0
        (RegionStack.start root w.cursor k.options.maxRegionDepth) w.cursor w.rest) :=
  traces_get fun _ => traces_complete hembedded (Nat.le_refl _) rfl

/-- **A run traces its forest**, for every budget. -/
theorem traces_runIn (budget : Nat) (document : Bool) (root : Grammar) (w : Window) :
    Traces k (runIn budget document root w)
      (Run.forest k.grammars k.options.maxRegionDepth budget (document && k.isCancelled) root
        w.cursor w.rest) := by
  induction budget generalizing document root w with
  | zero => exact traces_runWith (fun _ _ => traces_pure []) document 0 root w
  | succ budget ih => exact traces_runWith (ih false) document (budget + 1) root w

end SessionM

namespace Session

variable (s : Session) (t : Text) (root : Grammar) (span : Span) (depth : Nat)

/-- **What a run does in a session.** It gives the tokens or the error of its trace, and appends
the reports of its trace to those of the session; of the session nothing else is changed. -/
theorem runRange_eq :
    s.runRange t root span depth =
      ((s.trace t root span depth).outcome,
        { s with diagnostics := s.diagnostics ++ (s.trace t root span depth).diagnostics }) :=
  SessionM.traces_runIn (s.options.maxInterpolationDepth - depth) (depth == 0) root
    (.ofSpan t span) s.diagnostics

end Session

/-! ### The error of the regions -/

/-- A computation does not fail because of the regions. -/
def Traced.KeepsRegions (x : Traced α) : Prop := ∀ e, x.outcome ≠ .error (.region e)

theorem Traced.keepsRegions_pure (a : α) : (pure a : Traced α).KeepsRegions := fun _ => nofun

theorem Traced.keepsRegions_cancelled : (fail .cancelled : Traced α).KeepsRegions := fun _ => nofun

theorem Traced.keepsRegions_report (ds : List Diagnostic) : (report ds).KeepsRegions :=
  fun _ => nofun

theorem Traced.KeepsRegions.bind {x : Traced α} {f : α → Traced β} (hx : x.KeepsRegions)
    (hf : ∀ a, (f a).KeepsRegions) : (x >>= f).KeepsRegions := by
  obtain ⟨ds, outcome⟩ := x
  cases outcome with
  | error e => exact fun r hr => hx r (congrArg Except.error (Except.error.inj hr))
  | ok a => exact fun r hr => hf a r hr

namespace Run

open Traced

variable {grammars : GrammarSet} {embedded : Embedded}

theorem keepsRegions_lookup (id : String) : (lookup grammars id).KeepsRegions := by
  rw [lookup]
  split <;> exact fun _ => nofun

/-- Entering a region is refused in no way but those that are reported. -/
theorem keepsRegions_enter (stack : RegionStack) (id : String) (opener : Span) :
    (enter grammars stack id opener).KeepsRegions := by
  refine (keepsRegions_lookup id).bind fun g => ?_
  cases hpush : stack.push g opener.stop opener with
  | ok next => exact keepsRegions_pure next
  | error e =>
    cases e with
    | unbalanced depth => exact absurd hpush (stack.push_ne_unbalanced g _ _ depth)
    | «recursive» id => exact (keepsRegions_report _).bind fun _ => keepsRegions_pure stack
    | depthLimit limit => exact (keepsRegions_report _).bind fun _ => keepsRegions_pure stack

theorem keepsRegions_act (stack : RegionStack) (token : Span) (action : Option RegionAction) :
    (act grammars stack token action).KeepsRegions := by
  cases action with
  | none => exact keepsRegions_pure stack
  | some action =>
    cases action with
    | enter id => exact keepsRegions_enter stack id token
    | exit => exact keepsRegions_pure _
    | switch id => exact keepsRegions_enter _ id token

theorem keepsRegions_expressionTokens (h : ∀ g offset t, (embedded g offset t).KeepsRegions)
    (host : Grammar) (z : Zone) : (expressionTokens grammars embedded host z).KeepsRegions := by
  rw [expressionTokens]
  split
  · exact keepsRegions_pure []
  · cases z.grammar with
    | some id => exact (keepsRegions_lookup id).bind fun g => h g z.bodyStart z.body
    | none => exact (keepsRegions_pure host).bind fun g => h g z.bodyStart z.body

theorem keepsRegions_childrenFrom (h : ∀ g offset t, (embedded g offset t).KeepsRegions)
    (host : Grammar) (kind : TokenKind) (stop offset : Nat) (zones : List Zone) :
    (childrenFrom grammars embedded host kind stop offset zones).KeepsRegions := by
  induction zones generalizing offset with
  | nil => exact keepsRegions_pure _
  | cons z zones ih =>
    exact (keepsRegions_expressionTokens h host z).bind fun inner =>
      (ih z.stop).bind fun after => keepsRegions_pure _

theorem keepsRegions_splice (h : ∀ g offset t, (embedded g offset t).KeepsRegions)
    (host : Grammar) (raw : RawToken) : (splice grammars embedded host raw).KeepsRegions := by
  rw [splice]
  split
  · exact keepsRegions_pure _
  · exact (keepsRegions_childrenFrom h host _ _ _ _).bind fun _ => keepsRegions_pure _

theorem keepsRegions_forestFrom (h : ∀ g offset t, (embedded g offset t).KeepsRegions)
    (budget : Nat) (cancelled : Bool) (skip : Nat) (stack : RegionStack) (offset : Nat) (t : Text) :
    (forestFrom grammars budget embedded cancelled skip stack offset t).KeepsRegions := by
  induction t generalizing skip stack offset with
  | nil => cases skip <;> exact (keepsRegions_report _).bind fun _ => keepsRegions_pure []
  | cons c t ih =>
    cases skip with
    | succ skip => exact ih skip stack _
    | zero =>
      rw [forestFrom]
      by_cases hcancelled : cancelled = true
      · rw [if_pos hcancelled]
        exact keepsRegions_cancelled
      · rw [if_neg hcancelled]
        refine (keepsRegions_report _).bind fun _ => ?_
        refine (keepsRegions_splice h _ _).bind fun token => ?_
        refine (keepsRegions_act _ _ _).bind fun next => ?_
        exact (ih _ _ _).bind fun tokens => keepsRegions_pure _

theorem keepsRegions_forest (limit budget : Nat) (cancelled : Bool) (root : Grammar)
    (offset : Nat) (t : Text) :
    (forest grammars limit budget cancelled root offset t).KeepsRegions := by
  induction budget generalizing cancelled root offset t with
  | zero => exact keepsRegions_forestFrom (fun _ _ _ => keepsRegions_pure []) 0 _ _ _ _ _
  | succ budget ih => exact keepsRegions_forestFrom (ih false) _ _ _ _ _ _

end Run

/-- **No run fails because of its regions.** -/
theorem Session.runRange_ne_region (s : Session) (t : Text) (root : Grammar) (span : Span)
    (depth : Nat) (e : RegionError) : (s.runRange t root span depth).1 ≠ .error (.region e) := by
  rw [runRange_eq]
  exact Run.keepsRegions_forest _ _ _ _ _ _ e

end Polylex
