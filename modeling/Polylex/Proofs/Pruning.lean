import Mathlib
import Polylex.Proofs.Levels
import Polylex.Proofs.Literal.Steady
import Polylex.Proofs.OneMoreLevel
import Polylex.Proofs.PostProcessing

/-!
# What the limit of embedding does

A limit on the levels of embedding is meant to prune: the forest with a limit is the forest
with one level more, without what is below the last level (`Polylex.Token.pruneForest`). It
is not quite so. A literal at the last level is read without its zones, and a delimiter in an
expression of it, which with one level more would be skipped, then counts as its own. So a
literal can end earlier, and the text behind it becomes other tokens
(`Polylex.Tokenizer.limit_moves_end`). The search for the end of an expression has the same
weakness, since it skips literals with one level less.

That is all that goes wrong. `Polylex.Run.exhausted` lists the bodies that a run reads with
no level left: those of the literals at its last level, and those that its searches skip at
the last level they reach. As long as each of them ends where it would end with one level more
(`Polylex.Literal.Place.Steady`), the limit prunes and does nothing else
(`Polylex.Tokenizer.limit_prunes`). A body does so if its expressions hold no delimiters, escape
characters or line feeds of the literal, so without these it prunes in any case
(`Polylex.Tokenizer.exists_pruned_of_clear`).
-/

namespace Polylex

open Literal

/-! ### Pruning a forest -/

namespace Token

mutual
/-- The token without what is more than so many levels below it. -/
def prune : Nat → Token → Token
  | 0, node kind span _ => node kind span []
  | n + 1, node kind span children => node kind span (pruneForest n children)

/-- The forest without the children of the tokens at a depth. -/
def pruneForest (n : Nat) : List Token → List Token
  | [] => []
  | u :: us => prune n u :: pruneForest n us
end

variable {n : Nat} {us vs : List Token}

@[simp] theorem pruneForest_nil : pruneForest n [] = [] := rfl

@[simp] theorem pruneForest_cons (u : Token) (us : List Token) :
    pruneForest n (u :: us) = prune n u :: pruneForest n us := rfl

@[simp] theorem pruneForest_append (us vs : List Token) :
    pruneForest n (us ++ vs) = pruneForest n us ++ pruneForest n vs := by
  induction us with
  | nil => rfl
  | cons u us ih => rw [List.cons_append, pruneForest_cons, ih, pruneForest_cons, List.cons_append]

@[simp] theorem prune_leaf (kind : TokenKind) (span : Span) :
    prune n (leaf kind span) = leaf kind span := by
  cases n <;> rfl

mutual
theorem le_depth_of_mem_recordsAt : ∀ (u : Token) {depth : Nat} {r : TokenRecord},
    r ∈ recordsAt depth u → depth ≤ r.depth
  | node kind span children, depth, r, hr => by
    rw [recordsAt] at hr
    rcases List.mem_cons.mp hr with rfl | hr
    · exact Nat.le_refl _
    · exact Nat.le_of_succ_le (le_depth_of_mem_recordsForest children hr)

/-- The records of a forest at a depth are not above it. -/
theorem le_depth_of_mem_recordsForest : ∀ (us : List Token) {depth : Nat} {r : TokenRecord},
    r ∈ recordsForest depth us → depth ≤ r.depth
  | [], depth, r, hr => nomatch hr
  | u :: us, depth, r, hr => by
    rw [recordsForest] at hr
    rcases List.mem_append.mp hr with hr | hr
    · exact le_depth_of_mem_recordsAt u hr
    · exact le_depth_of_mem_recordsForest us hr
end

mutual
/-- The records of a pruned token are those that are not too deep. -/
theorem recordsAt_prune : ∀ (n depth : Nat) (u : Token),
    recordsAt depth (prune n u) = (recordsAt depth u).filter (·.depth ≤ depth + n)
  | 0, depth, node kind span children => by
    have hnone : (recordsForest (depth + 1) children).filter (·.depth ≤ depth) = [] :=
      List.filter_eq_nil_iff.mpr fun r hr => by
        have hdepth := le_depth_of_mem_recordsForest children hr
        simp only [decide_eq_true_eq]
        omega
    rw [prune, recordsAt, recordsAt, recordsForest, Nat.add_zero,
      List.filter_cons_of_pos (by simp), hnone]
  | n + 1, depth, node kind span children => by
    rw [prune, recordsAt, recordsAt, recordsForest_pruneForest n (depth + 1) children,
      List.filter_cons_of_pos (by simp), Nat.add_right_comm, Nat.add_assoc]

/-- **The records of a pruned forest are those that are not too deep.** -/
theorem recordsForest_pruneForest : ∀ (n depth : Nat) (us : List Token),
    recordsForest depth (pruneForest n us) = (recordsForest depth us).filter (·.depth ≤ depth + n)
  | n, depth, [] => rfl
  | n, depth, u :: us => by
    rw [pruneForest_cons, recordsForest, recordsForest, List.filter_append,
      recordsAt_prune n depth u, recordsForest_pruneForest n depth us]
end

end Token

namespace Run

open Token

variable {set : GrammarSet} {limit budget offset : Nat} {t m : Text} {stack : RegionStack}
variable {embedded deeper : Embedded}

theorem pruneForest_piece (n : Nat) (kind : TokenKind) (start stop : Nat) :
    pruneForest n (piece kind start stop) = piece kind start stop := by
  rw [piece]
  split
  · rw [pruneForest_cons, prune_leaf, pruneForest_nil]
  · rfl

/-- Pruning the children of a literal is pruning the tokens of its expressions. -/
theorem pruneForest_interleave (n : Nat) (kind : TokenKind) (stop : Nat)
    (inner : Zone → List Token) (offset : Nat) (zs : List Zone) :
    pruneForest n (interleave kind stop inner offset zs) =
      interleave kind stop (fun z => pruneForest n (inner z)) offset zs := by
  induction zs generalizing offset with
  | nil => exact pruneForest_piece n kind offset stop
  | cons z zs ih =>
    simp only [interleave, pruneForest_append, pruneForest_cons, pruneForest_piece, prune_leaf, ih]

theorem interleave_congr {kind : TokenKind} {stop : Nat} {inner inner' : Zone → List Token}
    {zs : List Zone} (h : ∀ z ∈ zs, inner z = inner' z) :
    interleave kind stop inner offset zs = interleave kind stop inner' offset zs := by
  induction zs generalizing offset with
  | nil => rfl
  | cons z zs ih =>
    obtain ⟨hz, hzs⟩ := List.forall_mem_cons.mp h
    rw [interleave, interleave, hz, ih hzs]

/-! ### The bodies that are read with no level left -/

/-- The bodies that the runs of expressions read with no level left. -/
abbrev EmbeddedPlaces := (root : Grammar) → (offset : Nat) → Text → List Place

/-- The bodies that the run of the expression of a zone reads with no level left. -/
def expressionExhausted (set : GrammarSet) (inner : EmbeddedPlaces) (host : Grammar) (z : Zone) :
    List Place :=
  if z.body.isEmpty then []
  else
    match z.grammar with
    | none => inner host z.bodyStart z.body
    | some id =>
      match set.get? id with
      | some g => inner g z.bodyStart z.body
      | none => []

/-- The bodies that a run reads with no level left: token by token those that the scanner
reads, and those that the runs of the expressions read. -/
def exhaustedFrom (set : GrammarSet) (budget : Nat) (inner : EmbeddedPlaces) :
    (skip : Nat) → RegionStack → (offset : Nat) → Text → List Place
  | _, _, _, [] => []
  | skip + 1, stack, offset, c :: t =>
    exhaustedFrom set budget inner skip stack (offset + c.utf8Size) t
  | 0, stack, offset, c :: t =>
    let found := stack.current.firstMatch budget offset (c :: t)
    let raw := RawToken.ofMatch found offset (c :: t)
    stack.current.exhausted budget offset (c :: t) ++
      raw.zones.flatMap (expressionExhausted set inner stack.current) ++
      match (act set stack raw.span raw.action).outcome with
      | .ok next =>
        exhaustedFrom set budget inner (found.length - 1) next (offset + c.utf8Size) t
      | .error _ => []

/-- **The bodies that a run of a text reads with no level left**, at all levels. -/
def exhausted (set : GrammarSet) (limit : Nat) : (budget : Nat) → EmbeddedPlaces
  | 0, root, offset, t =>
    exhaustedFrom set 0 (fun _ _ _ => []) 0 (RegionStack.start root offset limit) offset t
  | budget + 1, root, offset, t =>
    exhaustedFrom set (budget + 1) (exhausted set limit budget) 0
      (RegionStack.start root offset limit) offset t

theorem exhaustedFrom_append {inner : EmbeddedPlaces} (p r : Text) (offset : Nat) :
    exhaustedFrom set budget inner p.length stack offset (p ++ r) =
      exhaustedFrom set budget inner 0 stack (offset + p.width) r := by
  induction p generalizing offset with
  | nil => rfl
  | cons c p ih =>
    rw [List.length_cons, List.cons_append, exhaustedFrom, ih, Text.width_cons, Nat.add_assoc]

/-- The bodies of a run are those of its first turn and those of the rest. -/
theorem Turn.exhaustedFrom_eq {inner : EmbeddedPlaces} {step : Step} {next : RegionStack}
    {p r : Text} (h : Turn set budget t offset m step next p r) :
    exhaustedFrom set budget inner 0 step.stack offset m =
      step.stack.current.exhausted budget offset m ++
        step.raw.zones.flatMap (expressionExhausted set inner step.stack.current) ++
        exhaustedFrom set budget inner 0 next (offset + p.width) r := by
  obtain ⟨hcut, hlength, hraw, -, -, -, hplaced, hact, -⟩ := h
  subst hcut
  cases p with
  | nil => exact absurd rfl hplaced.ne_nil
  | cons c p =>
    rw [List.cons_append] at hlength hraw ⊢
    have hskip : (step.stack.current.firstMatch budget offset (c :: (p ++ r))).length - 1 =
        p.length := by
      rw [← hlength, List.length_cons, Nat.add_sub_cancel]
    rw [exhaustedFrom, ← hraw, hact, hskip]
    dsimp only
    rw [exhaustedFrom_append, Text.width_cons, Nat.add_assoc]

/-! ### One turn with one more level -/

/-- **With one more level a turn goes as far and leads to the same regions**, and it makes the
same token unless no level is left. -/
theorem Turn.deepens {step step' : Step} {next next' : RegionStack} {p p' r r' : Text}
    (h : Turn set budget t offset m step next p r)
    (h' : Turn set (budget + 1) t offset m step' next' p' r') (hstack : step'.stack = step.stack)
    (hfound : (step.stack.current.firstMatch budget offset m).Deepens budget
      (step.stack.current.firstMatch (budget + 1) offset m)) :
    p' = p ∧ r' = r ∧ next' = next ∧ step'.raw.kind = step.raw.kind ∧
      step'.raw.span = step.raw.span ∧ (0 < budget → step'.raw = step.raw) := by
  have hraw := h.raw_eq
  have hraw' := h'.raw_eq
  have hlength := h.length_eq
  have hlength' := h'.length_eq
  rw [hstack] at hraw' hlength'
  obtain ⟨rfl, rfl⟩ : p = p' ∧ r = r' :=
    List.append_inj (h.cut.symm.trans h'.cut)
      (hlength.trans (hfound.length_eq.symm.trans hlength'.symm))
  have hspan : step'.raw.span = step.raw.span := by rw [h'.span_eq, h.span_eq]
  have hkind : step'.raw.kind = step.raw.kind := by
    have hbare := congrArg Match.kind hfound.bare_eq
    rw [hraw', hraw]
    exact hbare
  have haction : step'.raw.action = step.raw.action := by
    have hbare := congrArg Match.action hfound.bare_eq
    rw [hraw', hraw]
    exact hbare
  have hact := h.act_eq
  have hact' := h'.act_eq
  rw [hstack, hspan, haction, hact] at hact'
  obtain ⟨-, hnext⟩ := Traced.mk.inj hact'
  refine ⟨rfl, rfl, (Except.ok.inj hnext).symm, hkind, hspan, fun hpos => ?_⟩
  rw [hraw', hraw, hfound.eq_of_pos hpos]

/-- Two ways to run an expression, the second with one level more: as long as the bodies that
the first reads with no level left are steady, both have tokens, and the first has those of
the second without what is below a depth. -/
def Embedded.PrunedFrom (set : GrammarSet) (n : Nat) (places : EmbeddedPlaces)
    (embedded deeper : Embedded) : Prop :=
  ∀ g ∈ set.grammars, ∀ offset t, (∀ p ∈ places g offset t, p.Steady) →
    ∃ tokens, (deeper g offset t).outcome = .ok tokens ∧
      (embedded g offset t).outcome = .ok (pruneForest n tokens)

/-- The tokens of an expression are those with one more level, pruned. -/
theorem Step.Placed.expression_pruned {n : Nat} {inner : EmbeddedPlaces} {step step' : Step}
    {p : Text} (h : step.Placed set budget t p) (hstack : step'.stack = step.stack)
    (he : Embedded.PrunedFrom set n inner embedded deeper) {z : Zone} (hz : z ∈ step.raw.zones)
    (hsteady : ∀ q ∈ expressionExhausted set inner step.stack.current z, q.Steady) :
    (step.expression set embedded z).get = pruneForest n (step'.expression set deeper z).get := by
  by_cases hne : z.body = []
  · rw [expression, expression, expressionTokens, expressionTokens, hne]
    rfl
  obtain ⟨g, hmem, hg⟩ := h.exists_grammar hz
  have hplaces : expressionExhausted set inner step.stack.current z =
      inner g z.bodyStart z.body := by
    have hempty : ¬z.body.isEmpty = true := by simpa using hne
    rw [expressionExhausted, if_neg hempty]
    rcases hg with ⟨hnone, rfl⟩ | ⟨id, hid, hget⟩
    · rw [hnone]
    · rw [hid]
      dsimp only
      rw [hget]
  rw [hplaces] at hsteady
  obtain ⟨tokens, hdeeper, hpruned⟩ := he g hmem _ _ hsteady
  rw [expression_eq hne hg, expression_eq hne (hstack ▸ hg), Traced.get_eq_of_outcome hdeeper,
    Traced.get_eq_of_outcome hpruned]

/-- **The token of a turn is the token with one more level, pruned.** -/
theorem Turn.token_eq_prune {inner : EmbeddedPlaces} {step step' : Step}
    {next next' : RegionStack} {p p' r r' : Text} (h : Turn set budget t offset m step next p r)
    (h' : Turn set (budget + 1) t offset m step' next' p' r') (hstack : step'.stack = step.stack)
    (hfound : (step.stack.current.firstMatch budget offset m).Deepens budget
      (step.stack.current.firstMatch (budget + 1) offset m))
    (he : ∀ n, budget = n + 1 → Embedded.PrunedFrom set n inner embedded deeper)
    (hsteady : ∀ q ∈ step.raw.zones.flatMap (expressionExhausted set inner step.stack.current),
      q.Steady) :
    step.token set embedded = prune budget (step'.token set deeper) := by
  obtain ⟨-, -, -, hkind, hspan, hraw⟩ := h.deepens h' hstack hfound
  cases budget with
  | zero =>
    have hzones : step.raw.zones = [] :=
      List.eq_nil_iff_forall_not_mem.mpr fun z hz =>
        absurd (h.placed.budget_pos z hz) (Nat.lt_irrefl 0)
    rw [Step.token, Step.token, prune, hkind, hspan, hzones]
    rfl
  | succ n =>
    have hinner : ∀ z ∈ step.raw.zones, (step.expression set embedded z).get =
        pruneForest n (step'.expression set deeper z).get := fun z hz =>
      h.placed.expression_pruned hstack (he n rfl) hz fun q hq =>
        hsteady q (List.mem_flatMap.mpr ⟨z, hz, hq⟩)
    rw [Step.token, Step.token, prune, hraw (Nat.succ_pos n)]
    split
    · rfl
    · rw [pruneForest_interleave, interleave_congr hinner]

/-! ### Runs with one more level -/

/-- **The loop with one more level**: its tokens, pruned, are those of the loop, as long as
the bodies that the loop reads with no level left are steady. -/
theorem exists_pruned_forestFrom (hs : set.Valid) (hstack : stack.Within set)
    (hat : Text.At t offset m) {inner : EmbeddedPlaces} (htiling : 0 < budget → embedded.Tiling set)
    (htiling' : deeper.Tiling set)
    (he : ∀ n, budget = n + 1 → Embedded.PrunedFrom set n inner embedded deeper)
    (hsteady : ∀ q ∈ exhaustedFrom set budget inner 0 stack offset m, q.Steady) :
    ∃ tokens,
      (forestFrom set (budget + 1) deeper false 0 stack offset m).outcome = .ok tokens ∧
      (forestFrom set budget embedded false 0 stack offset m).outcome =
        .ok (pruneForest budget tokens) := by
  -- The induction is on the length of the text, as for the replay: both loops turn alike.
  induction hn : m.length using Nat.strongRecOn generalizing stack offset m with
  | ind n ih =>
    by_cases hne : m = []
    · subst hne
      exact ⟨[], rfl, rfl⟩
    obtain ⟨raw, found, acted, next, p, r, hturn⟩ := exists_turn budget hs hstack hat hne
    obtain ⟨raw', found', acted', next', p', r', hturn'⟩ :=
      exists_turn (budget + 1) hs hstack hat hne
    rw [hturn.exhaustedFrom_eq] at hsteady
    obtain ⟨hfirst, hrest⟩ := List.forall_mem_append.mp hsteady
    obtain ⟨hliteral, hzones⟩ := List.forall_mem_append.mp hfirst
    have hfound := Grammar.deepens_firstMatch
      (fun rule hrule => (hs _ hstack.current_mem rule hrule).reads) hliteral
    have htoken := hturn.token_eq_prune hturn' rfl hfound he hzones
    obtain ⟨rfl, rfl, rfl, -⟩ := hturn.deepens hturn' rfl hfound
    have hatrest : Text.At t (offset + p'.width) r' := by
      rw [hturn.cut] at hat
      exact hat.right
    obtain ⟨tokens, hdeeper, hpruned⟩ :=
      ih r'.length (hn ▸ hturn.length_lt) hturn.within hatrest hrest rfl
    refine ⟨Step.token set deeper ⟨stack, raw', found', acted'⟩ :: tokens, ?_, ?_⟩
    · refine (congrArg Traced.outcome (hturn'.forestFrom_eq fun _ => htiling')).trans ?_
      exact Traced.outcome_bind_eq_ok_iff.mpr
        ⟨(), rfl, Traced.outcome_bind_eq_ok_iff.mpr ⟨tokens, hdeeper, rfl⟩⟩
    · refine (congrArg Traced.outcome (hturn.forestFrom_eq htiling)).trans ?_
      rw [pruneForest_cons, ← htoken]
      exact Traced.outcome_bind_eq_ok_iff.mpr
        ⟨(), rfl, Traced.outcome_bind_eq_ok_iff.mpr ⟨_, hpruned, rfl⟩⟩

/-- **A run with one more level, pruned, is the run**, as long as the bodies that the run
reads with no level left are steady. -/
theorem prunedFrom_forest (hs : set.Valid) (limit budget : Nat) :
    Embedded.PrunedFrom set budget (exhausted set limit budget) (forest set limit budget false)
      (forest set limit (budget + 1) false) := by
  induction budget with
  | zero =>
    intro g hg offset m hsteady
    obtain ⟨t, hat⟩ := exists_at offset m
    exact exists_pruned_forestFrom hs (RegionStack.within_start offset limit hg) hat
      (fun hpos => absurd hpos (Nat.lt_irrefl 0)) (tiling_forest hs limit 0)
      (fun n hn => nomatch hn) hsteady
  | succ budget ih =>
    intro g hg offset m hsteady
    obtain ⟨t, hat⟩ := exists_at offset m
    refine exists_pruned_forestFrom hs (RegionStack.within_start offset limit hg) hat
      (fun _ => tiling_forest hs limit budget) (tiling_forest hs limit (budget + 1)) ?_ hsteady
    rintro n ⟨⟩
    exact ih

end Run

/-! ### Results with one more level -/

/-- The options with one more level of embedding. -/
def TokenizeOptions.deeper (o : TokenizeOptions) : TokenizeOptions :=
  { o with maxInterpolationDepth := o.maxInterpolationDepth + 1 }

namespace Tokenizer

open Token

variable {set : GrammarSet}

/-- The bodies that are read with no level left in tokenizing a text. -/
def exhausted (set : GrammarSet) (o : TokenizeOptions) (t : Text) (root : String) : List Place :=
  match set.get? root with
  | some g => Run.exhausted set o.maxRegionDepth o.maxInterpolationDepth g 0 t
  | none => []

/-- **The limit can move the end of a literal.** In `"${"x"}"` with a limit of zero the first
template ends at the second quote, and there are three tokens; with a limit of one there is
one. -/
theorem limit_moves_end :
    let root := Template.grammar '"' "t" false
    let set : GrammarSet := ⟨[root]⟩
    let t : Text := ['"', '$', '\x7b', '"', 'x', '"', '\x7d', '"']
    GrammarSet.build [root] = .ok set ∧
      ∃ r r' : Tokenized,
        result set { maxInterpolationDepth := 0 } none t "t" .lenient false = .ok r ∧
        result set { maxInterpolationDepth := 1 } none t "t" .lenient false = .ok r' ∧
        r.stream.tokens =
          [.leaf .string ⟨0, 4⟩, .leaf .unclassified ⟨4, 5⟩, .leaf .string ⟨5, 8⟩] ∧
        r'.stream.tokens =
          [.node .string ⟨0, 8⟩ [.leaf .string ⟨0, 1⟩, .leaf .interpolationMarker ⟨1, 3⟩,
            .leaf .string ⟨3, 6⟩, .leaf .interpolationMarker ⟨6, 7⟩, .leaf .string ⟨7, 8⟩]] ∧
        r.stream.tokens ≠ pruneForest 0 r'.stream.tokens :=
  ⟨rfl, _, _, result_eq.trans rfl, result_eq.trans rfl, rfl, rfl,
    fun h => absurd (congrArg List.length h) (by decide)⟩

/-- The run with one more level, pruned, is the run. -/
theorem rawRun_deeper (hs : set.Valid) {o : TokenizeOptions} {t : Text} {root : String}
    (hroot : set.contains root = true) (h : ∀ p ∈ exhausted set o t root, p.Steady) :
    ∃ tokens, (rawRun set o.deeper none t root).outcome = .ok tokens ∧
      (rawRun set o none t root).outcome =
        .ok (pruneForest o.maxInterpolationDepth tokens) := by
  obtain ⟨g, hget⟩ := GrammarSet.exists_get? hroot
  rw [exhausted, hget] at h
  obtain ⟨tokens, hdeeper, hpruned⟩ := Run.prunedFrom_forest hs o.maxRegionDepth
    o.maxInterpolationDepth g (GrammarSet.mem_of_get? hget) 0 t h
  rw [rawRun, rawRun, Run.lookup_eq hget]
  exact ⟨tokens, Traced.outcome_bind_eq_ok_iff.mpr ⟨g, rfl, hdeeper⟩,
    Traced.outcome_bind_eq_ok_iff.mpr ⟨g, rfl, hpruned⟩⟩

/-- A run that has tokens leads to a lenient result with these tokens, if they are not
merged. -/
theorem result_of_rawRun (hs : set.Valid) {o : TokenizeOptions} {t : Text} {root : String}
    {tokens : List Token} (h : (rawRun set o none t root).outcome = .ok tokens) :
    result set o none t root .lenient false =
      .ok ⟨⟨tokens, t.width⟩, (rawRun set o none t root).diagnostics⟩ := by
  rcases outcome_rawRun hs o none t root with ⟨tokens', hok, htiles⟩ | herror | herror
  · obtain rfl : tokens' = tokens := Except.ok.inj (hok.symm.trans h)
    rw [result_eq, h]
    exact finish_lenient htiles false _
  · rw [herror] at h
    cases h
  · rw [herror] at h
    cases h

/-- With a limit the tokens are those with one level more, pruned, and the records are those that
are not deeper than the limit. -/
theorem exists_pruned_of_steady (hs : set.Valid) {o : TokenizeOptions} {t : Text} {root : String}
    (hroot : set.contains root = true) (h : ∀ p ∈ exhausted set o t root, p.Steady) :
    ∃ r r' : Tokenized,
      result set o none t root .lenient false = .ok r ∧
      result set o.deeper none t root .lenient false = .ok r' ∧
      r.stream.tokens = pruneForest o.maxInterpolationDepth r'.stream.tokens ∧
      r.stream.records = r'.stream.records.filter (·.depth ≤ o.maxInterpolationDepth) := by
  obtain ⟨tokens, hdeeper, hpruned⟩ := rawRun_deeper hs hroot h
  refine ⟨_, _, result_of_rawRun hs hpruned, result_of_rawRun hs hdeeper, rfl, ?_⟩
  rw [TokenStream.records_eq, TokenStream.records_eq, recordsForest_pruneForest, Nat.zero_add]

/-- **Where no expression holds anything of its literal, the limit prunes.** It is enough to look
at the literals that are read with no level left. -/
theorem exists_pruned_of_clear (hs : set.Valid) {o : TokenizeOptions} {t : Text} {root : String}
    (hroot : set.contains root = true) (h : ∀ p ∈ exhausted set o t root, p.Clear) :
    ∃ r r' : Tokenized,
      result set o none t root .lenient false = .ok r ∧
      result set o.deeper none t root .lenient false = .ok r' ∧
      r.stream.tokens = pruneForest o.maxInterpolationDepth r'.stream.tokens ∧
      r.stream.records = r'.stream.records.filter (·.depth ≤ o.maxInterpolationDepth) :=
  exists_pruned_of_steady hs hroot fun p hp => (h p hp).steady

/-- **The limit prunes, where it does not move the end of a literal.** Take a set that has
been built, and a text that is tokenized without merging. If every body that is read with no
level left ends where it would end with one level more, then the tokens are those with one
level more, without the children of the tokens at the depth of the limit; so the records are
those that are not deeper than the limit. -/
theorem limit_prunes {grammars : List Grammar} (hbuild : GrammarSet.build grammars = .ok set)
    (o : TokenizeOptions) (t : Text) (root : String)
    (hsteady : ∀ p ∈ exhausted set o t root, p.Steady) :
    (set.contains root = false →
      result set o none t root .lenient false = .error (.unknownGrammar root) ∧
      result set o.deeper none t root .lenient false = .error (.unknownGrammar root)) ∧
    (set.contains root = true → ∃ r r' : Tokenized,
      result set o none t root .lenient false = .ok r ∧
      result set o.deeper none t root .lenient false = .ok r' ∧
      r.stream.tokens = pruneForest o.maxInterpolationDepth r'.stream.tokens ∧
      r.stream.records = r'.stream.records.filter (·.depth ≤ o.maxInterpolationDepth)) := by
  have hs := GrammarSet.valid_of_build hbuild
  constructor
  · intro hroot
    rw [result_eq, result_eq, rawRun, rawRun, Run.lookup, GrammarSet.get?_eq_none hroot]
    exact ⟨rfl, rfl⟩
  · exact fun hroot => exists_pruned_of_steady hs hroot hsteady

/-- The case of a template in a template in a template, with a limit of one level: the text is
`"${"${x}"}"`, and the inner template, which is read with no level left, ends where it does
with one. So it loses its children and nothing else. -/
theorem limit_prunes_nested :
    let root := Template.grammar '"' "t" false
    let set : GrammarSet := ⟨[root]⟩
    let o : TokenizeOptions := { maxInterpolationDepth := 1 }
    let t : Text := ['"', '$', '\x7b', '"', '$', '\x7b', 'x', '\x7d', '"', '\x7d', '"']
    let outer (inner : List Token) : Token :=
      .node .string ⟨0, 11⟩ [.leaf .string ⟨0, 1⟩, .leaf .interpolationMarker ⟨1, 3⟩,
        .node .string ⟨3, 9⟩ inner, .leaf .interpolationMarker ⟨9, 10⟩, .leaf .string ⟨10, 11⟩]
    let inner : List Token :=
      [.leaf .string ⟨3, 4⟩, .leaf .interpolationMarker ⟨4, 6⟩, .leaf .unclassified ⟨6, 7⟩,
        .leaf .interpolationMarker ⟨7, 8⟩, .leaf .string ⟨8, 9⟩]
    GrammarSet.build [root] = .ok set ∧ (∀ p ∈ exhausted set o t "t", p.Steady) ∧
      set.contains "t" = true ∧
      ∃ r r' : Tokenized,
        result set o none t "t" .lenient false = .ok r ∧
        result set o.deeper none t "t" .lenient false = .ok r' ∧
        r.stream.tokens = pruneForest 1 r'.stream.tokens ∧
        r.stream.tokens = [outer []] ∧ r'.stream.tokens = [outer inner] := by
  intro root set o t outer inner
  have hbuild : GrammarSet.build [root] = .ok set := rfl
  have hsteady : ∀ p ∈ exhausted set o t "t", p.Steady := by
    dsimp only [root, set, o, t]
    decide
  obtain ⟨r, r', hr, hr', htokens, -⟩ := (limit_prunes hbuild o t "t" hsteady).2 rfl
  have hdeeper : (rawRun set o.deeper none t "t").outcome = .ok [outer inner] := by cbv
  have htokens' : r'.stream.tokens = [outer inner] := by
    rw [result_of_rawRun (GrammarSet.valid_of_build hbuild) hdeeper] at hr'
    exact (congrArg (·.stream.tokens) (Except.ok.inj hr')).symm
  refine ⟨hbuild, hsteady, rfl, r, r', hr, hr', htokens, ?_, htokens'⟩
  rw [htokens, htokens']
  rfl

end Tokenizer

end Polylex
