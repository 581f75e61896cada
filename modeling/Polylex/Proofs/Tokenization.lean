import Polylex.Proofs.Run.Result
import Polylex.Proofs.Template.Language

/-!
# Tokenization is total and exact

With a set of grammars that has been built, tokenizing a text can fail for two reasons only:
the root grammar is not in the set, or the policy is strict and there is something to
report. Whatever the text, the limits and the rules, the run comes to its end
(`Polylex.Run.tiling_forest`), its tokens tile the text, and so what is returned is exact
for the text (`Polylex.TokenStream.Exact`): the coverage check, which is part of the
program, never finds anything.
-/

namespace Polylex

/-- **A stream that is exact for a text**: at every level the tokens cover what they should,
none is empty, all ends are between characters, and the leaves spell out the text. -/
structure TokenStream.Exact (t : Text) (s : TokenStream) : Prop where
  width_eq : s.width = t.width
  covered : Token.checkCoverage s.tokens ⟨0, t.width⟩ = .ok ()
  covered_children : ∀ u, Token.Occurs u s.tokens → u.children ≠ [] →
    Token.checkCoverage u.children u.span = .ok ()
  start_lt_stop : ∀ u, Token.Occurs u s.tokens → u.span.start < u.span.stop
  isBoundary : ∀ u, Token.Occurs u s.tokens →
    t.IsBoundary u.span.start ∧ t.IsBoundary u.span.stop
  leaves : s.leaves.flatMap (fun u => t.slice u.span) = t

namespace Token

variable {t : Text} {forest : List Token}

/-- The children of a token of a tiling are covered, at whatever level the token is. -/
theorem Tiles.checkCoverage_children (h : Tiles 0 t forest) {u : Token} (hocc : Occurs u forest)
    (hne : u.children ≠ []) : checkCoverage u.children u.span = .ok () := by
  obtain ⟨p, q, r, -, hu⟩ := h.over_of_occurs hocc
  rcases hu.children with hnil | hcs
  · exact absurd hnil hne
  · rw [hu.span_eq]
    exact hcs.checkCoverage_eq_ok

/-- A stream of tokens that tile the text is exact. -/
theorem Tiles.exact (h : Tiles 0 t forest) : TokenStream.Exact t ⟨forest, t.width⟩ where
  width_eq := rfl
  covered := by simpa using h.checkCoverage_eq_ok
  covered_children _ hocc hne := h.checkCoverage_children hocc hne
  start_lt_stop _ hocc := h.start_lt_stop_of_occurs hocc
  isBoundary _ hocc := ⟨(h.isRange_of_occurs hocc).start, (h.isRange_of_occurs hocc).stop⟩
  leaves := Tiles.flatMap_leaves h

/-- Merged or not, the tokens of a tiling pass the check. -/
theorem Tiles.exists_ofTokens_eq (h : Tiles 0 t forest) (merge : Bool) :
    ∃ stream, TokenStream.ofTokens forest t.width merge = .ok stream ∧ stream.Exact t := by
  have hmerged : Tiles 0 t (if merge then Token.mergeAdjacent forest else forest) := by
    split
    · exact h.mergeAdjacent
    · exact h
  refine ⟨_, ?_, hmerged.exact⟩
  rw [TokenStream.ofTokens, hmerged.exact.covered]

end Token

namespace Tokenizer

variable {set : GrammarSet}

/-- **Tokenization is total and exact.** With a set that has been built, a root that is not
in the set is refused by name. With a root in the set there is a result that is exact for
the text: the lenient policy returns it, and the strict one returns it unless there is
something to report, and then fails with the first report. -/
theorem tokenize_exact {grammars : List Grammar} (hbuild : GrammarSet.build grammars = .ok set)
    (o : TokenizeOptions) (t : Text) (root : String) :
    (set.contains root = false →
      (Tokenizer.mk set o).tokenize t root = .error (.unknownGrammar root)) ∧
    (set.contains root = true → ∃ r : Tokenized, r.stream.Exact t ∧
      (o.policy = .lenient → (Tokenizer.mk set o).tokenize t root = .ok r) ∧
      (o.policy = .strict → (Tokenizer.mk set o).tokenize t root =
        match r.diagnostics with
        | [] => .ok r
        | d :: _ => .error (.rejected d))) := by
  have hs := GrammarSet.valid_of_build hbuild
  constructor
  · intro hroot
    rw [tokenize, tokenizeUnder_eq, rawRun, Run.lookup, GrammarSet.get?_eq_none hroot]
    rfl
  · intro hroot
    obtain ⟨g, hget⟩ := GrammarSet.exists_get? hroot
    obtain ⟨tokens, hok, htiles⟩ := Run.tiling_forest hs o.maxRegionDepth o.maxInterpolationDepth g
      (GrammarSet.mem_of_get? hget) 0 t
    obtain ⟨stream, hstream, hexact⟩ := htiles.exists_ofTokens_eq o.mergeAdjacent
    have hraw : (rawRun set o none t root).outcome = .ok tokens := by
      rw [rawRun, Run.lookup_eq hget]
      exact hok
    generalize hrun : rawRun set o none t root = run at hraw
    -- Once the run has ended well, only the policy is left.
    have htokenize : (Tokenizer.mk set o).tokenize t root =
        finish o t.width tokens run.diagnostics := by
      rw [tokenize, tokenizeUnder_eq, hrun, hraw]
      rfl
    refine ⟨⟨stream, run.diagnostics⟩, hexact, ?_, ?_⟩
    · intro hpolicy
      rw [htokenize, finish, hstream, TokenizeOptions.isStrict, hpolicy]
      rfl
    · intro hpolicy
      rw [htokenize, finish, hstream, TokenizeOptions.isStrict, hpolicy]
      cases run.diagnostics <;> rfl

/-- The case of a template whose expression is never closed. There is one token, and both the
expression and the template are reported. -/
theorem tokenize_exact_open_template :
    let root := Template.grammar '"' "t" false
    let k : Tokenizer := { grammars := ⟨[root]⟩ }
    let t : Text := ['"', 'a', '$', '\x7b', 'é']
    GrammarSet.build [root] = .ok k.grammars ∧ k.grammars.contains "t" = true ∧
      ∃ r : Tokenized, r.stream.Exact t ∧ k.tokenize t "t" = .ok r ∧
        r.stream.tokens = [.leaf .string ⟨0, 6⟩] ∧
        r.diagnostics.map (·.code) = [.unmatchedInterpolationCloser, .unterminatedRegion] := by
  intro root k t
  have hbuild : GrammarSet.build [root] = .ok k.grammars := rfl
  obtain ⟨r, hexact, hlenient, -⟩ := (tokenize_exact hbuild {} t "t").2 rfl
  have htokenize : k.tokenize t "t" = .ok r := hlenient rfl
  have htokens : (rawRun k.grammars {} none t "t").outcome = .ok [.leaf .string ⟨0, 6⟩] := rfl
  have hfinish : k.tokenize t "t" = .ok ⟨⟨[.leaf .string ⟨0, 6⟩], 6⟩,
      (rawRun k.grammars {} none t "t").diagnostics⟩ := by
    rw [tokenize, tokenizeUnder_eq, htokens]
    rfl
  obtain rfl := Except.ok.inj (htokenize.symm.trans hfinish)
  exact ⟨hbuild, rfl, _, hexact, htokenize, rfl, rfl⟩

end Tokenizer

end Polylex
