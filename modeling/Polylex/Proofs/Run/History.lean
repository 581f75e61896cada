import Polylex.Proofs.Locality
import Polylex.Proofs.Run.Replay
import Polylex.Proofs.Run.Session

/-!
# The runs of a session do not interfere

A session answers one request after the other: it runs whole texts and ranges of texts, from
roots that may not be in its set, and it may be told to stop. What is left of a request in the
session is its reports and, if it was told to stop, the signal. This file says that nothing
else is left, and that what is left does not reach into later runs.

A request in a session with any history gives what the same request gives in a session made
anew, which has the signal as the history left it (`Polylex.Session.anew`); and what the
session reports is only ever appended to. This holds of runs that fail as well, wherever they
fail. There are two steps to it. A run passes the session through all that it does, at all levels
of embedding, and every part of it appends to the reports that it finds and does not look at them
(`Polylex.Session.runRange_eq`), so it makes no difference which they are
(`Polylex.Session.runRange_eq_fresh`). And a request leaves the set and the options as they are,
which carries over to any history by induction (`Polylex.Session.after_eq`).

The signal stops a run over a text at its first token, before anything is reported, and only
at depth zero. A run over no text comes to no token.
-/

namespace Polylex

/-- What a session is asked to do. -/
inductive Request where
  | run (t : Text) (root : String)
  | runRange (t : Text) (root : Grammar) (span : Span) (depth : Nat)
  | cancel

/-- Whether the request gives the cancellation signal. -/
def Request.isCancel : Request → Bool
  | cancel => true
  | _ => false

namespace Run

variable {set : GrammarSet} {limit budget : Nat} {cancelled : Bool} {root : Grammar}
variable {offset : Nat} {t : Text}

/-- A run that is cancelled stops at its first token, before anything is reported. -/
theorem forest_cancelled (ht : t ≠ []) :
    forest set limit budget true root offset t = ⟨[], .error .cancelled⟩ := by
  obtain ⟨c, t, rfl⟩ := List.exists_cons_of_ne_nil ht
  rw [forest_eq]
  rfl

/-- A run over no text is not cancelled: it comes to no token. -/
theorem forest_cancelled_nil (cancelled' : Bool) :
    forest set limit budget cancelled root offset [] =
      forest set limit budget cancelled' root offset [] := by
  rw [forest_eq, forest_eq]
  rfl

end Run

namespace Session

variable {s : Session} {past : List Request} {t : Text} {root : Grammar} {span : Span} {depth : Nat}

/-- Does what a request asks for. A run gives its tokens or its error; to be told to stop gives
nothing. -/
def perform (s : Session) : Request → Option (Except TokenizeError (List Token)) × Session
  | .run t root => (some (s.run t root).1, (s.run t root).2)
  | .runRange t root span depth =>
    (some (s.runRange t root span depth).1, (s.runRange t root span depth).2)
  | .cancel => (none, s.cancel)

/-- The session after a history of requests. -/
def after (s : Session) (past : List Request) : Session :=
  past.foldl (fun s r => (s.perform r).2) s

/-- **The session made anew**: the set and the options of a session, the signal as a history
leaves it, and nothing reported. -/
def anew (s : Session) (past : List Request) : Session where
  grammars := s.grammars
  options := s.options
  signal := s.signal.map (· || past.any Request.isCancel)

/-- The session without a cancellation signal. -/
def unsignalled (s : Session) : Session := { s with signal := none }

/-! ### One request -/

/-- A run does not see what has been reported, and adds to it. -/
theorem runRange_eq_fresh (t : Text) (root : Grammar) (span : Span) (depth : Nat) :
    s.runRange t root span depth =
      ((s.fresh.runRange t root span depth).1,
        { (s.fresh.runRange t root span depth).2 with
          diagnostics := s.diagnostics ++ (s.fresh.runRange t root span depth).2.diagnostics }) := by
  rw [runRange_eq s, runRange_eq s.fresh]
  rfl

theorem anew_runRange (t : Text) (root : Grammar) (span : Span) (depth : Nat)
    (past : List Request) : (s.runRange t root span depth).2.anew past = s.anew past := by
  rw [runRange_eq]
  rfl

/-- **A request does not see what has been reported**, and adds to it. -/
theorem perform_eq (s : Session) (r : Request) :
    s.perform r =
      ((s.fresh.perform r).1,
        { (s.fresh.perform r).2 with
          diagnostics := s.diagnostics ++ (s.fresh.perform r).2.diagnostics }) := by
  rcases r with ⟨t, root⟩ | ⟨t, root, span, depth⟩ | _
  · have hgrammar : s.fresh.grammar root = s.grammar root := rfl
    simp only [perform, run, hgrammar]
    rcases s.grammar root with e | g
    · simp [fresh]
    · exact congrArg (Prod.map some id) (runRange_eq_fresh t g ⟨0, t.width⟩ 0)
  · exact congrArg (Prod.map some id) (runRange_eq_fresh t root span depth)
  · simp [perform, cancel, fresh]

/-- A request leaves the set and the options as they are, and the signal too, unless it gives
it. -/
theorem anew_perform (s : Session) (r : Request) (past : List Request) :
    (s.perform r).2.anew past = s.anew (r :: past) := by
  rcases r with ⟨t, root⟩ | ⟨t, root, span, depth⟩ | _
  · have hrun : (s.run t root).2.anew past = s.anew past := by
      rw [run]
      rcases s.grammar root with e | g
      · rfl
      · exact anew_runRange t g ⟨0, t.width⟩ 0 past
    exact hrun
  · exact anew_runRange t root span depth past
  · rw [perform, cancel, anew, anew, List.any_cons]
    rcases s.signal with _ | given <;> simp [Request.isCancel]

/-! ### Histories -/

/-- **After a history** a session is the session made anew, but for what has been reported. -/
theorem after_eq (s : Session) (past : List Request) :
    s.after past = { s.anew past with diagnostics := (s.after past).diagnostics } := by
  induction past generalizing s with
  | nil =>
    obtain ⟨set, o, signal, ds⟩ := s
    rcases signal with _ | given <;> simp [after, anew]
  | cons r past ih =>
    have hafter : s.after (r :: past) = (s.perform r).2.after past := rfl
    rw [hafter, ← anew_perform]
    exact ih (s.perform r).2

theorem fresh_after (s : Session) (past : List Request) : (s.after past).fresh = s.anew past := by
  rw [after_eq]
  rfl

/-! ### The signal -/

theorem trace_cancelled (hcancelled : s.isCancelled = true) (hspan : t.slice span ≠ []) :
    s.trace t root span 0 = ⟨[], .error .cancelled⟩ := by
  rw [trace, hcancelled]
  exact Run.forest_cancelled hspan

/-- A run over a range of some text at depth zero is stopped by the signal, and leaves the
session as it is. -/
theorem runRange_cancelled (hcancelled : s.isCancelled = true) (hspan : t.slice span ≠ []) :
    s.runRange t root span 0 = (.error .cancelled, s) := by
  rw [runRange_eq, trace_cancelled hcancelled hspan]
  simp

theorem run_cancelled (hcancelled : s.isCancelled = true) (ht : t ≠ []) {id : String}
    (hroot : s.grammars.contains id = true) : s.run t id = (.error .cancelled, s) := by
  obtain ⟨g, hget⟩ := GrammarSet.exists_get? hroot
  have hslice : t.slice ⟨0, t.width⟩ ≠ [] := by rwa [Text.slice_all]
  rw [run, grammar_eq_ok hget]
  exact runRange_cancelled hcancelled hslice

/-- The signal does not reach a run at a greater depth, or over no text. -/
theorem trace_unsignalled (h : depth ≠ 0 ∨ t.slice span = []) :
    s.unsignalled.trace t root span depth = s.trace t root span depth := by
  have hset : s.unsignalled.grammars = s.grammars := rfl
  have hoptions : s.unsignalled.options = s.options := rfl
  rw [trace, trace, hset, hoptions]
  rcases h with hdepth | hnil
  · rw [beq_false_of_ne hdepth, Bool.false_and, Bool.false_and]
  · rw [hnil]
    exact Run.forest_cancelled_nil _

/-- The request gives and reports what it does in the session without a signal. -/
def IgnoresSignal (s : Session) (r : Request) : Prop :=
  (s.perform r).1 = (s.unsignalled.perform r).1 ∧
    (s.perform r).2.diagnostics = (s.unsignalled.perform r).2.diagnostics

theorem ignoresSignal_runRange (h : depth ≠ 0 ∨ t.slice span = []) :
    s.IgnoresSignal (.runRange t root span depth) := by
  have htrace : s.unsignalled.trace t root span depth = s.trace t root span depth :=
    trace_unsignalled h
  have hdiagnostics : s.unsignalled.diagnostics = s.diagnostics := rfl
  rw [IgnoresSignal, perform, perform, runRange_eq, runRange_eq, htrace, hdiagnostics]
  exact ⟨rfl, rfl⟩

theorem ignoresSignal_run_nil (s : Session) (id : String) : s.IgnoresSignal (.run [] id) := by
  have hgrammar : s.unsignalled.grammar id = s.grammar id := rfl
  rw [IgnoresSignal, perform, perform, run, run, hgrammar]
  rcases s.grammar id with e | g
  · exact ⟨rfl, rfl⟩
  · exact ignoresSignal_runRange (Or.inr (Text.slice_eq_nil [] rfl))

/-! ### Requests in a session with a history -/

/-- **The runs of a session do not interfere.** Take a session and any history of requests,
failed ones among them.

* A request gives the tokens or the error that it gives in the session made anew, and what that
  session reports is added to what has been reported.
* If the signal has been given, then a run of a text from a root in the set, and a run over a
  range at depth zero, is cancelled and leaves the session as it is, unless there is no text.
* Runs at a greater depth and runs over no text are as they are without a signal. -/
theorem requests_do_not_interfere (s : Session) (past : List Request) :
    (∀ r, (s.after past).perform r =
      (((s.anew past).perform r).1,
        { ((s.anew past).perform r).2 with
          diagnostics :=
            (s.after past).diagnostics ++ ((s.anew past).perform r).2.diagnostics })) ∧
    ((s.anew past).isCancelled = true →
      (∀ t id, t ≠ [] → s.grammars.contains id = true →
        (s.after past).perform (.run t id) = (some (.error .cancelled), s.after past)) ∧
      ∀ t root span, Text.IsRange t span → span.start < span.stop →
        (s.after past).perform (.runRange t root span 0) =
          (some (.error .cancelled), s.after past)) ∧
    (∀ t root span depth, depth ≠ 0 ∨ span.start = span.stop →
      (s.after past).IgnoresSignal (.runRange t root span depth)) ∧
    ∀ id, (s.after past).IgnoresSignal (.run [] id) := by
  have hcancel : (s.after past).isCancelled = (s.anew past).isCancelled := by
    rw [after_eq]
    rfl
  have hset : (s.after past).grammars = s.grammars := by
    rw [after_eq]
    rfl
  refine ⟨fun r => ?_, fun hcancelled => ⟨fun t id ht hroot => ?_, fun t root span hspan hlt => ?_⟩,
    fun t root span depth h => ignoresSignal_runRange ?_, ignoresSignal_run_nil _⟩
  · rw [← fresh_after]
    exact perform_eq (s.after past) r
  · rw [← hcancel] at hcancelled
    rw [← hset] at hroot
    rw [perform, run_cancelled hcancelled ht hroot]
  · rw [← hcancel] at hcancelled
    rw [perform, runRange_cancelled hcancelled (hspan.slice_ne_nil hlt)]
  · exact h.imp_right (Text.slice_eq_nil t)

/-- The case of a run that fails midway and then a signal. The root of the run is not in the
set and names a grammar that is not there either: a literal without its end is reported, and
two tokens later the run fails. -/
theorem requests_do_not_interfere_stray :
    let stray : Grammar :=
      ⟨"stray", [⟨.string, .delimited ⟨['"'], ['"'], none, false, []⟩, none⟩,
        ⟨.tag, .literal ['<'], some (.enter "missing")⟩], false⟩
    let s : Session := { grammars := ⟨[]⟩, signal := some false }
    let failing : Request := .runRange ['"', 'a', '\n', '<'] stray ⟨0, 4⟩ 0
    let past := [failing, .cancel]
    (s.perform failing).1 = some (.error (.unknownGrammar "missing")) ∧
    (s.after past).diagnostics.length = 1 ∧ (s.anew past).isCancelled = true ∧
    (s.after past).perform (.runRange ['a'] stray ⟨0, 1⟩ 0) =
      (some (.error .cancelled), s.after past) ∧
    (s.after past).IgnoresSignal (.runRange ['a'] stray ⟨0, 1⟩ 1) := by
  intro stray s failing past
  have hcancelled : (s.anew past).isCancelled = true := rfl
  have hrange : Text.IsRange ['a'] ⟨0, 1⟩ := Text.isRange_iff_exists.mpr ⟨[], ['a'], [], rfl, rfl⟩
  obtain ⟨-, hstops, hdeeper, -⟩ := requests_do_not_interfere s past
  refine ⟨?_, ?_, hcancelled, ?_, ?_⟩
  · rfl
  · rfl
  · exact (hstops hcancelled).2 ['a'] stray ⟨0, 1⟩ hrange (by decide)
  · exact hdeeper ['a'] stray ⟨0, 1⟩ 1 (Or.inl (by decide))

end Session

end Polylex
