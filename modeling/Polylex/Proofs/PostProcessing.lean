import Polylex.Proofs.Run.Result
import Polylex.Proofs.Template.Language

/-!
# Policy and merging come after the run

Four results of tokenizing one text are compared here: with either policy, merged or not
(`Polylex.Tokenizer.result`). They share the run. What is left is the last step:

* the strict policy is the lenient one with a look at the first report
  (`Polylex.Tokenizer.result_strict`);
* merging acts on the tokens alone (`Polylex.Tokenizer.result_merged`). The check of the
  coverage stands behind merging, so merging could in principle turn a result into an error;
  in a valid set it never does, since the tokens of a run tile the text, merged or not.
-/

namespace Polylex

open Token

namespace Tokenizer

variable {set : GrammarSet} {o : TokenizeOptions} {signal : Option Bool} {t : Text} {root : String}
variable {policy : Policy} {merge : Bool}

/-- The result of tokenizing a text with a policy, merged or not; the limits are those of
some options. -/
def result (set : GrammarSet) (o : TokenizeOptions) (signal : Option Bool) (t : Text)
    (root : String) (policy : Policy) (merge : Bool) : Except TokenizeError Tokenized :=
  (Tokenizer.mk set { o with policy, mergeAdjacent := merge }).tokenizeUnder signal t root

/-- The policy and merging do not reach the run. -/
theorem result_eq :
    result set o signal t root policy merge =
      (rawRun set o signal t root).outcome.bind fun tokens =>
        finish { o with policy, mergeAdjacent := merge } t.width tokens
          (rawRun set o signal t root).diagnostics :=
  tokenizeUnder_eq

/-! ### The policy -/

/-- What the strict policy does with a result: it fails with the first report. -/
def refuseReports (r : Tokenized) : Except TokenizeError Tokenized :=
  match r.diagnostics with
  | [] => .ok r
  | d :: _ => .error (.rejected d)

theorem finish_strict (width : Nat) (tokens : List Token) (ds : List Diagnostic) :
    finish { o with policy := .strict } width tokens ds =
      (finish { o with policy := .lenient } width tokens ds).bind refuseReports := by
  rw [finish, finish]
  cases TokenStream.ofTokens tokens width o.mergeAdjacent with
  | error e => rfl
  | ok stream => cases ds <;> rfl

/-- **The strict policy looks at the first report of the lenient one.** -/
theorem result_strict :
    result set o signal t root .strict merge =
      (result set o signal t root .lenient merge).bind refuseReports := by
  rw [result_eq, result_eq]
  cases (rawRun set o signal t root).outcome with
  | error e => rfl
  | ok tokens => exact finish_strict (o := { o with mergeAdjacent := merge }) t.width tokens _

theorem bind_refuseReports_eq_ok_iff {x : Except TokenizeError Tokenized} {r : Tokenized} :
    x.bind refuseReports = .ok r ↔ x = .ok r ∧ r.diagnostics = [] := by
  cases x with
  | error e => simp [Except.bind]
  | ok r' =>
    obtain ⟨stream, ds⟩ := r'
    cases ds with
    | nil =>
      constructor
      · rintro ⟨⟩
        exact ⟨rfl, rfl⟩
      · rintro ⟨⟨⟩, -⟩
        rfl
    | cons d ds =>
      constructor
      · rintro ⟨⟩
      · rintro ⟨⟨⟩, hnil⟩
        cases hnil

theorem bind_refuseReports_eq_rejected_iff {x : Except TokenizeError Tokenized} {d : Diagnostic}
    (hx : ∀ d, x ≠ .error (.rejected d)) :
    x.bind refuseReports = .error (.rejected d) ↔ ∃ stream ds, x = .ok ⟨stream, d :: ds⟩ := by
  cases x with
  | error e =>
    constructor
    · intro h
      exact absurd (h : (.error e : Except TokenizeError Tokenized) = _) (hx d)
    · rintro ⟨stream, ds, ⟨⟩⟩
  | ok r =>
    obtain ⟨stream, ds⟩ := r
    cases ds with
    | nil =>
      constructor
      · rintro ⟨⟩
      · rintro ⟨stream', ds', ⟨⟩⟩
    | cons d' ds =>
      constructor
      · rintro ⟨⟩
        exact ⟨stream, ds, rfl⟩
      · rintro ⟨stream', ds', ⟨⟩⟩
        rfl

/-- Looking at the first report makes no other error than its rejection. -/
theorem bind_refuseReports_eq_error_iff {x : Except TokenizeError Tokenized} {e : TokenizeError}
    (he : ∀ d, e ≠ .rejected d) : x.bind refuseReports = .error e ↔ x = .error e := by
  cases x with
  | error e' => exact Iff.rfl
  | ok r =>
    obtain ⟨stream, ds⟩ := r
    cases ds with
    | nil =>
      constructor <;> rintro ⟨⟩
    | cons d ds =>
      constructor
      · rintro ⟨⟩
        exact absurd rfl (he d)
      · rintro ⟨⟩

/-! ### Merging -/

/-- The result with its tokens merged. -/
def mergeTokens (r : Tokenized) : Tokenized :=
  ⟨⟨mergeAdjacent r.stream.tokens, r.stream.width⟩, r.diagnostics⟩

/-- **In a valid set the last step of the lenient policy never fails**, merged or not. -/
theorem finish_lenient {tokens : List Token} (h : Tiles 0 t tokens) (merge : Bool)
    (ds : List Diagnostic) :
    finish { o with policy := .lenient, mergeAdjacent := merge } t.width tokens ds =
      .ok ⟨⟨if merge then mergeAdjacent tokens else tokens, t.width⟩, ds⟩ := by
  have hmerged : Tiles 0 t (if merge then mergeAdjacent tokens else tokens) := by
    split
    · exact h.mergeAdjacent
    · exact h
  have hcovered := hmerged.checkCoverage_eq_ok
  rw [Nat.zero_add] at hcovered
  rw [finish, TokenStream.ofTokens]
  dsimp only
  rw [hcovered]
  rfl

/-- The result of the lenient policy is that of the run, or an error that is no report. -/
theorem result_lenient (hs : set.Valid) (o : TokenizeOptions) (signal : Option Bool) (t : Text)
    (root : String) :
    (∃ tokens, Tiles 0 t tokens ∧ ∀ merge, result set o signal t root .lenient merge =
      .ok ⟨⟨if merge then mergeAdjacent tokens else tokens, t.width⟩,
        (rawRun set o signal t root).diagnostics⟩) ∨
    ∃ e, (∀ d, e ≠ .rejected d) ∧
      ∀ merge, result set o signal t root .lenient merge = .error e := by
  rcases outcome_rawRun hs o signal t root with ⟨tokens, hok, htiles⟩ | hcancelled | hunknown
  · refine Or.inl ⟨tokens, htiles, fun merge => ?_⟩
    rw [result_eq, hok]
    exact finish_lenient htiles merge _
  · refine Or.inr ⟨.cancelled, by simp, fun merge => ?_⟩
    rw [result_eq, hcancelled]
    rfl
  · refine Or.inr ⟨.unknownGrammar root, by simp, fun merge => ?_⟩
    rw [result_eq, hunknown]
    rfl

/-- The lenient policy rejects nothing. -/
theorem result_lenient_ne_rejected (hs : set.Valid) (d : Diagnostic) :
    result set o signal t root .lenient merge ≠ .error (.rejected d) := by
  intro h
  rcases result_lenient hs o signal t root with ⟨tokens, -, hok⟩ | ⟨e, hne, herror⟩
  · rw [hok] at h
    cases h
  · rw [herror] at h
    exact hne d (Except.error.inj h)

/-- **Merging acts on the tokens alone**: the lenient results are the same but for it. -/
theorem result_merged (hs : set.Valid) :
    result set o signal t root .lenient true =
      (result set o signal t root .lenient false).map mergeTokens := by
  rcases result_lenient hs o signal t root with ⟨tokens, -, hok⟩ | ⟨e, -, herror⟩
  · rw [hok, hok]
    rfl
  · rw [herror, herror]
    rfl

/-! ### The four results -/

/-- **Policy and merging come after the run.** Take a set that has been built, and compare the
four results of tokenizing a text with the same limits.

* The strict result is a stream without reports exactly when the lenient one is, and it never
  has reports. It is the rejection of a report exactly when the lenient result has that report
  first. Every other error is the same in both.
* The lenient results, merged or not, are the same error, or they have the same reports and
  the tokens of the one are those of the other, merged. -/
theorem policy_and_merging_after_run {grammars : List Grammar}
    (hbuild : GrammarSet.build grammars = .ok set) (o : TokenizeOptions) (signal : Option Bool)
    (t : Text) (root : String) :
    (∀ merge stream, result set o signal t root .strict merge = .ok ⟨stream, []⟩ ↔
      result set o signal t root .lenient merge = .ok ⟨stream, []⟩) ∧
    (∀ merge r, result set o signal t root .strict merge = .ok r → r.diagnostics = []) ∧
    (∀ merge d, result set o signal t root .strict merge = .error (.rejected d) ↔
      ∃ stream ds, result set o signal t root .lenient merge = .ok ⟨stream, d :: ds⟩) ∧
    (∀ merge e, (∀ d, e ≠ .rejected d) → (result set o signal t root .strict merge = .error e ↔
      result set o signal t root .lenient merge = .error e)) ∧
    result set o signal t root .lenient true =
      (result set o signal t root .lenient false).map fun r =>
        ⟨⟨mergeAdjacent r.stream.tokens, r.stream.width⟩, r.diagnostics⟩ := by
  have hs := GrammarSet.valid_of_build hbuild
  refine ⟨fun merge stream => ?_, fun merge r h => ?_, fun merge d => ?_, fun merge e he => ?_,
    result_merged hs⟩
  · rw [result_strict, bind_refuseReports_eq_ok_iff]
    exact and_iff_left rfl
  · rw [result_strict, bind_refuseReports_eq_ok_iff] at h
    exact h.2
  · rw [result_strict]
    exact bind_refuseReports_eq_rejected_iff (result_lenient_ne_rejected hs)
  · rw [result_strict]
    exact bind_refuseReports_eq_error_iff he

/-- The case of a template that is never closed, behind two characters that no rule matches:
the strict policy rejects what the lenient one reports first, and merging joins the two
characters. -/
theorem policy_and_merging_after_run_open :
    let root := Template.grammar '"' "t" false
    let set : GrammarSet := ⟨[root]⟩
    let t : Text := ['a', 'b', '"', 'é']
    let tokens : List Token :=
      [.leaf .unclassified ⟨0, 1⟩, .leaf .unclassified ⟨1, 2⟩, .leaf .string ⟨2, 5⟩]
    GrammarSet.build [root] = .ok set ∧
      ∃ d : Diagnostic, d.code = .unterminatedRegion ∧ d.span = ⟨2, 5⟩ ∧
        result set {} none t "t" .strict false = .error (.rejected d) ∧
        result set {} none t "t" .lenient false = .ok ⟨⟨tokens, 5⟩, [d]⟩ ∧
        result set {} none t "t" .lenient true =
          .ok ⟨⟨[.leaf .unclassified ⟨0, 2⟩, .leaf .string ⟨2, 5⟩], 5⟩, [d]⟩ := by
  intro root set t tokens
  have hbuild : GrammarSet.build [root] = .ok set := rfl
  obtain ⟨d, hcode, hspan, hlenient⟩ : ∃ d : Diagnostic, d.code = .unterminatedRegion ∧
      d.span = ⟨2, 5⟩ ∧ result set {} none t "t" .lenient false = .ok ⟨⟨tokens, 5⟩, [d]⟩ :=
    ⟨_, rfl, rfl, result_eq.trans rfl⟩
  obtain ⟨-, -, hrejected, -, hmerged⟩ := policy_and_merging_after_run hbuild {} none t "t"
  rw [hlenient] at hmerged
  exact ⟨hbuild, d, hcode, hspan, (hrejected false d).mpr ⟨_, _, hlenient⟩, hlenient, hmerged⟩

end Tokenizer

end Polylex
