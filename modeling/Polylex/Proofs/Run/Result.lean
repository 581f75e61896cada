import Polylex.Proofs.Run.Replay
import Polylex.Proofs.Run.Session
import Polylex.Tokenizer

/-!
# Tokenizing is a run and a last step

Of the options, the run over a text reads the two limits and nothing else, and a fresh
session keeps exactly what the run reports. So there is one computation
(`Polylex.Tokenizer.rawRun`) whose tokens and reports are handed to the last step, which
merges, checks and applies the policy (`Polylex.Tokenizer.tokenizeUnder_eq`).
-/

namespace Polylex

open Token

namespace Run

/-- **A run ends in one of two ways**: it has tokens that tile its text, or it has been
cancelled. -/
theorem outcome_forest {set : GrammarSet} (hs : set.Valid) {g : Grammar}
    (hg : g ∈ set.grammars) (limit budget : Nat) (cancelled : Bool) (offset : Nat) (t : Text) :
    (∃ tokens, (forest set limit budget cancelled g offset t).outcome = .ok tokens ∧
      Tiles offset t tokens) ∨
    (forest set limit budget cancelled g offset t).outcome = .error .cancelled := by
  cases cancelled with
  | false => exact Or.inl (tiling_forest hs limit budget g hg offset t)
  | true =>
    rw [forest_eq]
    cases t with
    | nil => exact Or.inl ⟨[], rfl, tiles_nil.mpr rfl⟩
    -- The first token is where the run stops.
    | cons c t => exact Or.inr rfl

end Run

namespace Tokenizer

variable {set : GrammarSet} {o : TokenizeOptions} {signal : Option Bool} {t : Text} {root : String}

/-- The run over a text from a root that is looked up, with the limits of some options: its
tokens as they are found, and what it reports. -/
def rawRun (set : GrammarSet) (o : TokenizeOptions) (signal : Option Bool) (t : Text)
    (root : String) : Traced (List Token) := do
  let g ← Run.lookup set root
  Run.forest set o.maxRegionDepth o.maxInterpolationDepth (signal.getD false) g 0 t

/-- A fresh session returns what the run returns and keeps what it reports. -/
theorem run_eq_rawRun :
    ({ grammars := set, options := o, signal } : Session).run t root =
      ((rawRun set o signal t root).outcome,
        { grammars := set, options := o, signal,
          diagnostics := (rawRun set o signal t root).diagnostics }) := by
  rw [Session.run, Session.grammar, rawRun]
  cases hget : set.get? root with
  | none => simp [Run.lookup, hget, Traced.fail]
  | some g =>
    simp [Run.lookup_eq hget, Traced.value, Session.runRange_eq, Session.trace,
      Session.isCancelled, Text.slice_all]

/-- **Tokenizing is the run and the last step.** -/
theorem tokenizeUnder_eq :
    (Tokenizer.mk set o).tokenizeUnder signal t root =
      (rawRun set o signal t root).outcome.bind fun tokens =>
        finish o t.width tokens (rawRun set o signal t root).diagnostics := by
  rw [tokenizeUnder]
  dsimp only
  rw [run_eq_rawRun]
  cases (rawRun set o signal t root).outcome <;> rfl

/-- **The run over a whole text has tokens that tile the text**, or else it has been cancelled
or its root is not known. -/
theorem outcome_rawRun (hs : set.Valid) (o : TokenizeOptions) (signal : Option Bool) (t : Text)
    (root : String) :
    (∃ tokens, (rawRun set o signal t root).outcome = .ok tokens ∧ Tiles 0 t tokens) ∨
    (rawRun set o signal t root).outcome = .error .cancelled ∨
    (rawRun set o signal t root).outcome = .error (.unknownGrammar root) := by
  cases hget : set.get? root with
  | none => exact Or.inr (Or.inr (by rw [rawRun, Run.lookup, hget]; rfl))
  | some g =>
    have hrun : (rawRun set o signal t root).outcome = (Run.forest set o.maxRegionDepth
        o.maxInterpolationDepth (signal.getD false) g 0 t).outcome := by
      rw [rawRun, Run.lookup_eq hget]
      rfl
    rw [hrun]
    rcases Run.outcome_forest hs (GrammarSet.mem_of_get? hget) o.maxRegionDepth
      o.maxInterpolationDepth (signal.getD false) 0 t with hok | hcancelled
    · exact Or.inl hok
    · exact Or.inr (Or.inl hcancelled)

/-- What the last step returns: the tokens, merged or not. -/
theorem tokens_of_finish_eq_ok {width : Nat} {tokens : List Token} {ds : List Diagnostic}
    {r : Tokenized} (h : finish o width tokens ds = .ok r) :
    r.stream.tokens = if o.mergeAdjacent then mergeAdjacent tokens else tokens := by
  rw [finish, TokenStream.ofTokens] at h
  generalize (if o.mergeAdjacent then mergeAdjacent tokens else tokens) = merged at h ⊢
  split at h
  · cases h
  next stream hstream =>
  split at hstream
  · cases hstream
  cases hstream
  split at h
  · cases h
  · cases h
    rfl

/-- What the last step reports is what it is given. -/
theorem diagnostics_of_finish_eq_ok {width : Nat} {tokens : List Token} {ds : List Diagnostic}
    {r : Tokenized} (h : finish o width tokens ds = .ok r) : r.diagnostics = ds := by
  rw [finish] at h
  split at h
  · cases h
  split at h
  · cases h
  · cases h
    rfl

end Tokenizer

end Polylex
