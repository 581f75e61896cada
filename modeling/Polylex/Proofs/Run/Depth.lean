import Mathlib
import Polylex.Proofs.Levels
import Polylex.Proofs.Run.Result
import Polylex.Proofs.Template.Language

/-!
# The limit bounds the depth

Nothing compares the depth of a token with the limit. What is there is a budget: every run
has one, a run of an expression has one less than the run around it, and a literal that is
scanned without budget has no zones. So the levels below a token are no more than the budget
of its run (`Polylex.Run.levelsForest_forest_le`), and the limit is the budget of the
outermost run (`Polylex.depth_le_limit`).

That a literal without budget has no zones holds for every grammar, whatever its forms of
embedded expression look like (`Polylex.Grammar.zones_firstMatch_zero`).
-/

namespace Polylex

open Token

/-! ### Literals without budget -/

namespace Literal

variable {host : Host} {offset : Nat} {t : Text}

theorem opening?_none_ne_zone {forms : List Interpolation} {z : Zone} :
    opening? none host offset t forms ≠ some (.zone z) := by
  intro h
  have hstands := stands_of_opening? (by simp) h
  exact absurd hstands.1 (by simp)

/-- A body that is scanned without a search has no zones. -/
theorem zones_scanFrom_none (skip : Nat) (plain : Bool) (offset : Nat) (t : Text) :
    (scanFrom none host skip plain offset t).zones = [] := by
  induction t generalizing skip plain offset with
  | nil => rw [scanFrom_nil]
  | cons c t ih =>
    cases skip with
    | succ skip => exact ih skip plain _
    | zero =>
      rw [scanFrom]
      split
      · rfl
      split
      · exact ih 1 plain _
      split
      · rfl
      split
      · exact ih 0 plain _
      next z hzone =>
        -- The only way to a zone is an opening, and there is none without a search.
        cases plain
        · exact absurd hzone opening?_none_ne_zone
        · cases hzone
      · exact ih _ true _
      · exact ih _ plain _

theorem zones_matchDelimited?_zero {spec : Delimited} {literals : List Delimited} {found : Found}
    (h : matchDelimited? spec literals 0 offset t = some found) : found.zones = [] := by
  rw [matchDelimited?] at h
  split at h
  · cases h
    exact zones_scanFrom_none 0 false _ _
  · cases h

theorem zones_scanHeredocBody_zero (spec : Heredoc) (header : HeredocHeader)
    (literals : List Delimited) (origin offset : Nat) (body : Text) :
    (scanHeredocBody spec header literals 0 origin offset body).zones = [] := by
  rw [scanHeredocBody]
  split
  · rfl
  · exact zones_scanFrom_none 0 false offset body

theorem zones_matchHeredoc?_zero {spec : Heredoc} {literals : List Delimited} {found : Found}
    (h : matchHeredoc? spec literals 0 offset t = some found) : found.zones = [] := by
  rw [matchHeredoc?] at h
  split at h
  · cases h
  dsimp only at h
  split at h
  · cases h
    rfl
  split at h
  · cases h
    exact zones_scanHeredocBody_zero _ _ _ _ _ _
  · cases h
    exact zones_scanHeredocBody_zero _ _ _ _ _ _

end Literal

theorem Matcher.zones_match?_zero {m : Matcher} {literals : List Delimited} {offset : Nat}
    {t : Text} {found : Literal.Found} (h : m.match? literals 0 offset t = some found) :
    found.zones = [] := by
  cases m with
  | literal text =>
    rw [match?_literal] at h
    split at h <;> cases h
    rfl
  | keyword text =>
    rw [match?_keyword] at h
    split at h <;> cases h
    rfl
  | chars cls repeats =>
    obtain ⟨n, -, rfl⟩ := Option.map_eq_some_iff.mp h
    rfl
  | pattern p =>
    obtain ⟨n, -, rfl⟩ := Option.map_eq_some_iff.mp h
    rfl
  | delimited spec => exact Literal.zones_matchDelimited?_zero h
  | heredoc spec => exact Literal.zones_matchHeredoc?_zero h

namespace Grammar

theorem zones_firstOf_zero {literals : List Delimited} {offset : Nat} {t : Text} {index : Nat}
    {rules : List Rule} {m : Match} (h : firstOf literals 0 offset t index rules = some m) :
    m.zones = [] := by
  induction rules generalizing index with
  | nil => cases h
  | cons r rest ih =>
    rw [firstOf_cons] at h
    split at h
    next m' hm =>
      cases h
      rw [Rule.match?_eq] at hm
      split at hm
      · cases hm
      next found hfound =>
      split at hm
      · cases hm
      · cases hm
        exact Matcher.zones_match?_zero hfound
    next => exact ih h

/-- **Without budget no token has zones**, whatever the rules of the grammar. -/
theorem zones_firstMatch_zero (g : Grammar) (offset : Nat) (t : Text) :
    (g.firstMatch 0 offset t).zones = [] := by
  rw [firstMatch_eq]
  cases hfound : firstOf g.literals 0 offset t 0 g.rules with
  | none => rfl
  | some m => exact zones_firstOf_zero hfound

end Grammar

/-! ### Levels of a run -/

namespace Run

variable {grammars : GrammarSet} {embedded : Embedded} {host : Grammar} {kind : TokenKind}
variable {budget n : Nat}

/-- Expressions turn into forests of no more levels than a number. -/
def Embedded.LevelsLe (n : Nat) (embedded : Embedded) : Prop :=
  ∀ g offset t tokens, (embedded g offset t).outcome = .ok tokens → levelsForest tokens ≤ n

theorem levelsForest_piece_le (kind : TokenKind) (start stop : Nat) :
    levelsForest (piece kind start stop) ≤ 1 := by
  rw [piece]
  split
  · exact Nat.le_refl 1
  · exact Nat.zero_le 1

theorem levelsForest_expressionTokens_le (he : embedded.LevelsLe n) {z : Zone} {tokens : List Token}
    (h : (expressionTokens grammars embedded host z).outcome = .ok tokens) :
    levelsForest tokens ≤ n := by
  rw [expressionTokens] at h
  split at h
  · cases h
    exact Nat.zero_le n
  · dsimp only at h
    split at h
    all_goals
      obtain ⟨g, -, hg⟩ := Traced.outcome_bind_eq_ok_iff.mp h
      exact he g _ _ tokens hg

/-- The pieces and the delimiters make one level, the expressions their own. -/
theorem levelsForest_childrenFrom_le (he : embedded.LevelsLe (n + 1)) {stop offset : Nat}
    {zones : List Zone} {tokens : List Token}
    (h : (childrenFrom grammars embedded host kind stop offset zones).outcome = .ok tokens) :
    levelsForest tokens ≤ n + 1 := by
  have hpiece (kind : TokenKind) (start stop : Nat) :
      levelsForest (piece kind start stop) ≤ n + 1 :=
    Nat.le_trans (levelsForest_piece_le kind start stop) (Nat.succ_le_succ (Nat.zero_le n))
  induction zones generalizing offset tokens with
  | nil =>
    cases h
    exact hpiece kind offset stop
  | cons z zones ih =>
    rw [childrenFrom] at h
    obtain ⟨inner, hinner, h⟩ := Traced.outcome_bind_eq_ok_iff.mp h
    obtain ⟨after, hafter, h⟩ := Traced.outcome_bind_eq_ok_iff.mp h
    cases h
    have hbefore := hpiece kind offset z.start
    have hclose := hpiece .interpolationMarker z.bodyStop z.stop
    have hexpression := levelsForest_expressionTokens_le he hinner
    have hrest := ih hafter
    simp only [levelsForest_append, levelsForest_cons, levels_leaf]
    omega

theorem levels_splice_le (he : embedded.LevelsLe (n + 1)) {raw : RawToken} {token : Token}
    (h : (splice grammars embedded host raw).outcome = .ok token) : token.levels ≤ n + 1 := by
  rw [splice] at h
  split at h
  · cases h
    exact Nat.zero_le _
  · obtain ⟨children, hchildren, h⟩ := Traced.outcome_bind_eq_ok_iff.mp h
    cases h
    exact levelsForest_childrenFrom_le he hchildren

/-- The loop adds no level to those of the trees it makes of its tokens. -/
theorem levelsForest_forestFrom_le {cancelled : Bool}
    (hsplice : ∀ (g : Grammar) (offset : Nat) (t : Text) (token : Token),
      (splice grammars embedded g
        (.ofMatch (g.firstMatch budget offset t) offset t)).outcome = .ok token →
        token.levels ≤ n)
    {skip offset : Nat} {stack : RegionStack} {t : Text} {tokens : List Token}
    (h : (forestFrom grammars budget embedded cancelled skip stack offset t).outcome =
      .ok tokens) : levelsForest tokens ≤ n + 1 := by
  induction t generalizing skip stack offset tokens with
  | nil =>
    cases skip <;> cases h <;> exact Nat.zero_le _
  | cons c t ih =>
    cases skip with
    | succ skip => exact ih h
    | zero =>
      rw [forestFrom] at h
      split at h
      · cases h
      · obtain ⟨-, -, h⟩ := Traced.outcome_bind_eq_ok_iff.mp h
        obtain ⟨token, htoken, h⟩ := Traced.outcome_bind_eq_ok_iff.mp h
        obtain ⟨next, -, h⟩ := Traced.outcome_bind_eq_ok_iff.mp h
        obtain ⟨rest, hrest, h⟩ := Traced.outcome_bind_eq_ok_iff.mp h
        cases h
        exact Nat.max_le.mpr ⟨Nat.succ_le_succ (hsplice _ _ _ _ htoken), ih hrest⟩

/-- **A run has no more levels than its budget allows**, its tokens not counted. -/
theorem levelsForest_forest_le {limit : Nat} {cancelled : Bool} {root : Grammar} {offset : Nat}
    {t : Text} {tokens : List Token}
    (h : (forest grammars limit budget cancelled root offset t).outcome = .ok tokens) :
    levelsForest tokens ≤ budget + 1 := by
  induction budget generalizing cancelled root offset t tokens with
  | zero =>
    refine levelsForest_forestFrom_le ?_ h
    intro g offset t token htoken
    -- There are no zones, so the token is a leaf.
    have hzones : (RawToken.ofMatch (g.firstMatch 0 offset t) offset t).zones = [] :=
      g.zones_firstMatch_zero offset t
    rw [splice, hzones] at htoken
    cases htoken
    exact Nat.le_refl 0
  | succ budget ih =>
    have hbelow : Embedded.LevelsLe (budget + 1) (forest grammars limit budget false) :=
      fun _ _ _ _ htokens => ih htokens
    exact levelsForest_forestFrom_le (fun _ _ _ _ htoken => levels_splice_le hbelow htoken) h

end Run

/-! ### The limit -/

namespace Session

/-- The levels below a token of a run at some depth: what is left of the limit there. -/
theorem levels_le_of_occurs {s : Session} {t : Text} {root : Grammar} {span : Span} {depth : Nat}
    {tokens : List Token} (h : (s.runRange t root span depth).1 = .ok tokens) {u : Token}
    (hu : Occurs u tokens) : u.levels ≤ s.options.maxInterpolationDepth - depth := by
  have hforest : levelsForest tokens ≤ s.options.maxInterpolationDepth - depth + 1 :=
    Run.levelsForest_forest_le (by rwa [runRange_eq] at h)
  have hlt := hu.levels_lt
  omega

end Session

namespace Tokenizer

/-- The greatest depth of a text that has been tokenized: merging keeps it. -/
theorem maxDepth_le_of_tokenizeUnder {set : GrammarSet} {o : TokenizeOptions}
    {signal : Option Bool} {t : Text} {root : String} {r : Tokenized}
    (h : (Tokenizer.mk set o).tokenizeUnder signal t root = .ok r) :
    r.stream.maxDepth ≤ o.maxInterpolationDepth := by
  rw [tokenizeUnder_eq] at h
  cases hraw : (rawRun set o signal t root).outcome with
  | error e =>
    rw [hraw] at h
    cases h
  | ok tokens =>
    rw [hraw] at h
    obtain ⟨g, -, hforest⟩ := Traced.outcome_bind_eq_ok_iff.mp hraw
    have hlevels : levelsForest tokens ≤ o.maxInterpolationDepth + 1 :=
      Run.levelsForest_forest_le hforest
    have hmerged : levelsForest r.stream.tokens = levelsForest tokens := by
      rw [tokens_of_finish_eq_ok h]
      split
      · exact levelsForest_mergeAdjacent tokens
      · rfl
    rw [TokenStream.maxDepth_eq, hmerged]
    omega

end Tokenizer

/-- **The limit bounds the depth.** No token of a run at some depth, at whatever level of its
forest, has a descendant further down than there are levels left of the limit at that depth;
and the greatest depth of a tokenized text is no more than the limit, merged or not. -/
theorem depth_le_limit :
    (∀ (s : Session) (t : Text) (root : Grammar) (span : Span) (depth : Nat)
      (tokens : List Token), (s.runRange t root span depth).1 = .ok tokens →
        ∀ u, Occurs u tokens → ∀ n v, Below n u v →
          n ≤ s.options.maxInterpolationDepth - depth) ∧
    ∀ (k : Tokenizer) (signal : Option Bool) (t : Text) (root : String) (r : Tokenized),
      k.tokenizeUnder signal t root = .ok r →
        r.stream.maxDepth ≤ k.options.maxInterpolationDepth := by
  refine ⟨fun s t root span depth tokens h u hu n v hv => ?_, fun k signal t root r h => ?_⟩
  · exact Nat.le_trans hv.le_levels (Session.levels_le_of_occurs h hu)
  · exact Tokenizer.maxDepth_le_of_tokenizeUnder h

/-- The case of a template in a zone of a template, with a limit of one level: the text is
`"${"${x}"}"`, and the inner template stays a leaf, one level below the outer one. -/
theorem depth_le_limit_nested :
    let root := Template.grammar '"' "t" false
    let k : Tokenizer := { grammars := ⟨[root]⟩, options := { maxInterpolationDepth := 1 } }
    let s : Session := { grammars := k.grammars, options := k.options }
    let t : Text := ['"', '$', '\x7b', '"', '$', '\x7b', 'x', '\x7d', '"', '\x7d', '"']
    let inner : Token := .leaf .string ⟨3, 9⟩
    let outer : Token :=
      .node .string ⟨0, 11⟩ [.leaf .string ⟨0, 1⟩, .leaf .interpolationMarker ⟨1, 3⟩, inner,
        .leaf .interpolationMarker ⟨9, 10⟩, .leaf .string ⟨10, 11⟩]
    (s.runRange t root ⟨0, 11⟩ 0).1 = .ok [outer] ∧ Below 1 outer inner ∧
      1 ≤ k.options.maxInterpolationDepth - 0 ∧
      ∃ r, k.tokenizeUnder none t "t" = .ok r ∧
        r.stream.maxDepth ≤ k.options.maxInterpolationDepth := by
  intro root k s t inner outer
  have hrun : (s.runRange t root ⟨0, 11⟩ 0).1 = .ok [outer] := by cbv
  have hbelow : Below 1 outer inner :=
    .child (List.mem_cons_of_mem _ (List.mem_cons_of_mem _ List.mem_cons_self)) (.here _)
  have htokens : (Tokenizer.rawRun k.grammars k.options none t "t").outcome = .ok [outer] := by cbv
  obtain ⟨r, htokenize⟩ : ∃ r, k.tokenizeUnder none t "t" = .ok r := by
    rw [Tokenizer.tokenizeUnder_eq, htokens]
    exact ⟨_, rfl⟩
  exact ⟨hrun, hbelow, depth_le_limit.1 _ _ _ _ _ _ hrun outer (.head []) 1 inner hbelow, r,
    htokenize, depth_le_limit.2 _ _ _ _ _ htokenize⟩

end Polylex
