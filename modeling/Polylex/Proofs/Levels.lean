import Polylex.Proofs.Tiling

/-!
# Levels of a forest

A token is so many levels below another one if that many steps from a parent to a child
lead to it (`Polylex.Token.Below`). `Polylex.Token.levels` is the greatest number of steps
that can be made from a token, and `Polylex.Token.levelsForest` the number of levels of a
forest, which is one more than the levels below its tokens.

The depth of a record of a walk counts the same steps from the other end. The walk keeps the
levels it is in the middle of; `Polylex.Token.walk_records_eq` says what it lists without
that stack, and the greatest depth of a stream is then the number of its levels
(`Polylex.TokenStream.maxDepth_eq`).

Merging joins leaves only, so it changes no number of levels
(`Polylex.Token.levelsForest_mergeAdjacent`).
-/

namespace Polylex

namespace Token

/-! ### Descendants -/

/-- `Below n u v`: the token `v` is `n` levels below the token `u`. -/
inductive Below : Nat → Token → Token → Prop
  | here (u : Token) : Below 0 u u
  | child {n : Nat} {u c v : Token} (mem : c ∈ u.children) (below : Below n c v) :
      Below (n + 1) u v

mutual
/-- The number of levels below a token. -/
def levels : Token → Nat
  | node _ _ cs => levelsForest cs

/-- The number of levels of a forest. -/
def levelsForest : List Token → Nat
  | [] => 0
  | u :: us => max (levels u + 1) (levelsForest us)
end

variable {u v : Token} {us vs : List Token} {n : Nat}

@[simp] theorem levels_node (k : TokenKind) (s : Span) (cs : List Token) :
    (node k s cs).levels = levelsForest cs := rfl

@[simp] theorem levelsForest_nil : levelsForest [] = 0 := rfl

@[simp] theorem levelsForest_cons (u : Token) (us : List Token) :
    levelsForest (u :: us) = max (u.levels + 1) (levelsForest us) := rfl

theorem levels_eq (u : Token) : u.levels = levelsForest u.children := by
  cases u
  rfl

theorem levels_leaf (k : TokenKind) (s : Span) : (leaf k s).levels = 0 := rfl

@[simp] theorem levelsForest_append (us vs : List Token) :
    levelsForest (us ++ vs) = max (levelsForest us) (levelsForest vs) := by
  induction us with
  | nil => simp
  | cons u us ih => rw [List.cons_append, levelsForest_cons, ih, levelsForest_cons, Nat.max_assoc]

/-- A forest has no more levels than a number if every token has fewer below it. -/
theorem levelsForest_le_iff : levelsForest us ≤ n ↔ ∀ u ∈ us, u.levels < n := by
  induction us with
  | nil => simp
  | cons u us ih =>
    rw [levelsForest_cons, Nat.max_le, ih, List.forall_mem_cons]
    rfl

theorem levels_lt_of_mem (h : u ∈ us) : u.levels < levelsForest us :=
  levelsForest_le_iff.mp (Nat.le_refl _) u h

/-- **A descendant is no further down than there are levels.** -/
theorem Below.le_levels (h : Below n u v) : n ≤ u.levels := by
  induction h with
  | here u => exact Nat.zero_le _
  | @child n u c v hmem _ ih =>
    have hlt : c.levels < levelsForest u.children := levels_lt_of_mem hmem
    rw [levels_eq u]
    omega

/-- A token has fewer levels below it than the forest it occurs in has. -/
theorem Occurs.levels_lt (h : Occurs u us) : u.levels < levelsForest us := by
  induction h with
  | head us => exact levels_lt_of_mem List.mem_cons_self
  | @child v us _ ih =>
    rw [← levels_eq] at ih
    exact Nat.lt_trans ih (levels_lt_of_mem List.mem_cons_self)
  | @tail v us _ ih => exact Nat.lt_of_lt_of_le ih (Nat.le_max_right _ _)

/-! ### The depth of records -/

mutual
/-- The records of a token at some depth, the token itself first. -/
def recordsAt (depth : Nat) : Token → List TokenRecord
  | node k s cs => ⟨k, s, depth⟩ :: recordsForest (depth + 1) cs

/-- The records of a forest at some depth, in the order of the text. -/
def recordsForest (depth : Nat) : List Token → List TokenRecord
  | [] => []
  | u :: us => recordsAt depth u ++ recordsForest depth us
end

/-- The records of what is left of each level of a walk. -/
def recordsLevels : List (List Token) → List TokenRecord
  | [] => []
  | level :: outer => recordsForest outer.length level ++ recordsLevels outer

theorem recordsAt_eq (depth : Nat) (u : Token) :
    recordsAt depth u = ⟨u.kind, u.span, depth⟩ :: recordsForest (depth + 1) u.children := by
  cases u
  rfl

/-- The walk that keeps its open levels lists the records of what is left of each level. -/
theorem walk_records_eq (pending : List (List Token)) :
    Walk.records pending = recordsLevels pending := by
  induction pending using Walk.records.induct with
  | case1 => rw [Walk.records, recordsLevels]
  | case2 outer ih => rw [Walk.records, ih, recordsLevels, recordsForest, List.nil_append]
  | case3 u us outer h ih =>
    rw [Walk.records, if_pos h, ih]
    simp [recordsLevels, recordsForest, recordsAt_eq, List.isEmpty_iff.mp h]
  | case4 u us outer h ih =>
    rw [Walk.records, if_neg h, ih]
    simp [recordsLevels, recordsForest, recordsAt_eq]

mutual
/-- The greatest depth below a token is that of its lowest level. -/
theorem foldl_recordsAt : ∀ (u : Token) (depth n : Nat),
    ((recordsAt depth u).map (·.depth)).foldl max n = max n (depth + u.levels)
  | node k s cs, depth, n => by
    rw [recordsAt, List.map_cons, List.foldl_cons,
      foldl_recordsForest cs (depth + 1) (max n depth) (by omega), levels_node]
    omega

theorem foldl_recordsForest : ∀ (us : List Token) (depth n : Nat), depth ≤ n + 1 →
    ((recordsForest depth us).map (·.depth)).foldl max n = max n (depth + levelsForest us - 1)
  | [], depth, n, h => by
    rw [recordsForest, List.map_nil, List.foldl_nil, levelsForest_nil]
    omega
  | u :: us, depth, n, h => by
    rw [recordsForest, List.map_append, List.foldl_append, foldl_recordsAt u depth n,
      foldl_recordsForest us depth _ (by omega), levelsForest_cons]
    omega
end

/-! ### Merging -/

/-- A join keeps the number of levels: both tokens are leaves, and so is what they become. -/
theorem JoinStep.levelsForest_eq (h : JoinStep us vs) : levelsForest vs = levelsForest us := by
  induction h with
  | @pair t u us joined =>
    obtain ⟨-, ht, hu, -⟩ := joins_iff.mp joined
    rw [levelsForest_cons, levelsForest_cons, levelsForest_cons, levels_eq t, levels_eq u, ht, hu,
      join, levels_leaf, levelsForest_nil]
    omega
  | inside k s us step ih => rw [levelsForest_cons, levelsForest_cons, levels_node, levels_node, ih]
  | later u step ih => rw [levelsForest_cons, levelsForest_cons, ih]

/-- **Merging keeps the number of levels.** -/
theorem levelsForest_mergeAdjacent (us : List Token) :
    levelsForest (mergeAdjacent us) = levelsForest us :=
  mergeAdjacent_induction (P := fun vs => levelsForest vs = levelsForest us)
    (fun step h => step.levelsForest_eq.trans h) rfl

end Token

namespace TokenStream

open Token

/-- The records of a stream are those of its forest, whose tokens have depth zero. -/
theorem records_eq (s : TokenStream) : s.records = recordsForest 0 s.tokens := by
  rw [records, walk_records_eq, recordsLevels, recordsLevels, List.append_nil]
  rfl

/-- **The greatest depth of a stream is the number of levels below its tokens.** -/
theorem maxDepth_eq (s : TokenStream) : s.maxDepth = levelsForest s.tokens - 1 := by
  rw [maxDepth, records_eq, foldl_recordsForest s.tokens 0 0 (Nat.zero_le 1)]
  omega

end TokenStream

end Polylex
