import Polylex.Proofs.Levels

/-!
# What a walk tells of a forest

A walk goes from token to token with a stack of levels, some of which may be exhausted; what it
does between two tokens is `Polylex.Walk.next?`. Nothing of the stack is left in what it lists.
In the order in which a recursion meets them, parents before children, every token is *visited*
once together with the tokens around it (`Polylex.Token.Visit`), and a record is what remains of
a visit when of the tokens around it only their number is kept.

That number is enough to tell everything else. A token has no children exactly if the next record
is not deeper, or if there is none (`Polylex.Token.ends`); the greatest depth is the height of the
forest (`Polylex.Token.IsHeight`); and the children of a token are the records behind its own as
far as they are deeper, so the forest can be built again from its records
(`Polylex.Token.rebuild`).
-/

namespace Polylex

/-! ### From token to token -/

namespace Walk

/-- The next record of a walk, and the levels it is in the middle of then. Exhausted levels are
left first. -/
def next? : List (List Token) → Option (TokenRecord × List (List Token))
  | [] => none
  | [] :: outer => next? outer
  | (t :: ts) :: outer =>
    some (⟨t.kind, t.span, outer.length⟩,
      if t.isLeaf then ts :: outer else t.children :: ts :: outer)

/-- A walk lists records and ends. -/
inductive Yields : List (List Token) → List TokenRecord → Prop
  | done {levels : List (List Token)} (h : next? levels = none) : Yields levels []
  | more {levels levels' : List (List Token)} {r : TokenRecord} {rs : List TokenRecord}
      (h : next? levels = some (r, levels')) (rest : Yields levels' rs) : Yields levels (r :: rs)

/-- An exhausted level makes no difference to what comes. -/
theorem Yields.leave {outer : List (List Token)} {rs : List TokenRecord} (h : Yields outer rs) :
    Yields ([] :: outer) rs := by
  cases h with
  | done h => exact .done h
  | more h rest => exact .more h rest

/-- **From every stack a walk ends**, and what it lists are the records. -/
theorem yields_records (levels : List (List Token)) : Yields levels (records levels) := by
  induction levels using records.induct with
  | case1 =>
    rw [records]
    exact .done rfl
  | case2 outer ih =>
    rw [records]
    exact ih.leave
  | case3 t ts outer h ih =>
    rw [records, if_pos h]
    exact .more (by rw [next?, if_pos h]) ih
  | case4 t ts outer h ih =>
    rw [records, if_neg h]
    exact .more (by rw [next?, if_neg h]) ih

end Walk

namespace Token

variable {u p : Token} {us around : List Token}

/-! ### Visits -/

/-- A token on a walk, with the tokens around it, the innermost first. -/
structure Visit where
  token : Token
  around : List Token

/-- The number of tokens around the token. -/
def Visit.depth (v : Visit) : Nat := v.around.length

@[simp] theorem Visit.depth_mk (u : Token) (around : List Token) :
    (Visit.mk u around).depth = around.length := rfl

/-- What a walk tells of a visit. -/
def Visit.record (v : Visit) : TokenRecord := ⟨v.token.kind, v.token.span, v.depth⟩

mutual
/-- The visits of a token and of all that is inside it. -/
def visitsAt (around : List Token) : Token → List Visit
  | node k s cs => ⟨node k s cs, around⟩ :: visits (node k s cs :: around) cs

/-- The visits of a forest, parents before children and in the order of the text. -/
def visits (around : List Token) : List Token → List Visit
  | [] => []
  | u :: us => visitsAt around u ++ visits around us
end

@[simp] theorem visits_nil (around : List Token) : visits around [] = [] := rfl

theorem visits_cons (around : List Token) (u : Token) (us : List Token) :
    visits around (u :: us) =
      ⟨u, around⟩ :: (visits (u :: around) u.children ++ visits around us) := by
  cases u
  rfl

theorem recordsForest_cons (depth : Nat) (u : Token) (us : List Token) :
    recordsForest depth (u :: us) =
      ⟨u.kind, u.span, depth⟩ ::
        (recordsForest (depth + 1) u.children ++ recordsForest depth us) := by
  rw [recordsForest, recordsAt_eq, List.cons_append]

/-- **The records are those of the visits**, all under as many tokens as there are around. -/
theorem recordsForest_eq_visits (us around : List Token) :
    recordsForest around.length us = (visits around us).map Visit.record := by
  induction us using forest_induction generalizing around with
  | nil => rfl
  | cons u us inside behind =>
    rw [recordsForest_cons, visits_cons, List.map_cons, List.map_append, ← inside, ← behind]
    rfl

/-- `Lineage forest u around`: the tokens `around` lead from the token `u` to the top of a forest,
each of them the parent of the one in front of it. -/
inductive Lineage (forest : List Token) : Token → List Token → Prop
  | top {u : Token} (mem : u ∈ forest) : Lineage forest u []
  | inside {u p : Token} {around : List Token} (line : Lineage forest p around)
      (mem : u ∈ p.children) : Lineage forest u (p :: around)

theorem lineage_of_mem_visits {forest : List Token} {v : Visit} (hv : v ∈ visits around us)
    (hus : ∀ u ∈ us, Lineage forest u around) : Lineage forest v.token v.around := by
  induction us using forest_induction generalizing around with
  | nil => cases hv
  | cons u us inside behind =>
    obtain ⟨hu, hus⟩ := List.forall_mem_cons.mp hus
    rw [visits_cons, List.mem_cons, List.mem_append] at hv
    rcases hv with rfl | hv | hv
    · exact hu
    · exact inside hv fun c hc => .inside hu hc
    · exact behind hv hus

theorem mem_visits_of_mem (hu : u ∈ us) : ⟨u, around⟩ ∈ visits around us := by
  induction us with
  | nil => cases hu
  | cons v us ih =>
    rw [visits_cons, List.mem_cons, List.mem_append]
    rcases List.mem_cons.mp hu with rfl | hu
    · exact Or.inl rfl
    · exact Or.inr (Or.inr (ih hu))

theorem mem_visits_of_mem_children {outer : List Token} (hp : ⟨p, around⟩ ∈ visits outer us)
    (hu : u ∈ p.children) : ⟨u, p :: around⟩ ∈ visits outer us := by
  induction us using forest_induction generalizing outer with
  | nil => cases hp
  | cons v us inside behind =>
    rw [visits_cons, List.mem_cons, List.mem_append] at hp ⊢
    rcases hp with heq | hp | hp
    · cases heq
      exact Or.inr (Or.inl (mem_visits_of_mem hu))
    · exact Or.inr (Or.inl (inside hp))
    · exact Or.inr (Or.inr (behind hp))

/-- **What is visited** are the tokens of the forest, each with its ancestors. -/
theorem mem_visits_iff : ⟨u, around⟩ ∈ visits [] us ↔ Lineage us u around := by
  constructor
  · intro h
    exact lineage_of_mem_visits h fun u hu => .top hu
  · intro h
    induction h with
    | top mem => exact mem_visits_of_mem mem
    | inside _ mem ih => exact mem_visits_of_mem_children ih mem

/-! ### Leaves -/

/-- The visits that no deeper one follows, or none at all. -/
def ends : List Visit → List Visit
  | [] => []
  | v :: rest => if ∀ w ∈ rest.head?, w.depth ≤ v.depth then v :: ends rest else ends rest

/-- What follows the visits of a forest is not deeper than they are, and nor are they. -/
theorem head_visits_append (us : List Token) {rest : List Visit}
    (hrest : ∀ w ∈ rest.head?, w.depth ≤ around.length) :
    ∀ w ∈ (visits around us ++ rest).head?, w.depth ≤ around.length := by
  cases us with
  | nil => exact hrest
  | cons u us =>
    rw [visits_cons]
    rintro w ⟨⟩
    exact Nat.le_refl _

/-- **Of the visits of a forest those of the leaves are kept**, whatever is visited after them, as
long as it is not deeper. -/
theorem ends_visits_append (us around : List Token) (rest : List Visit)
    (hrest : ∀ w ∈ rest.head?, w.depth ≤ around.length) :
    (ends (visits around us ++ rest)).map Visit.token =
      leavesForest us ++ (ends rest).map Visit.token := by
  induction us using forest_induction generalizing around rest with
  | nil => rfl
  | cons u us inside behind =>
    have hnext := head_visits_append us hrest
    rw [visits_cons, List.cons_append, List.append_assoc, ends, leavesForest, Visit.depth_mk]
    by_cases hleaf : u.isLeaf = true
    · have hchildren : u.children = [] := List.isEmpty_iff.mp hleaf
      rw [hchildren, visits_nil, List.nil_append, if_pos hnext, List.map_cons,
        behind around rest hrest, leaves_of_isLeaf hleaf]
      rfl
    · -- The first child is visited next, and it is deeper.
      obtain ⟨c, cs, hchildren⟩ : ∃ c cs, u.children = c :: cs :=
        List.exists_cons_of_ne_nil (mt List.isEmpty_iff.mpr hleaf)
      have hdeeper : ¬∀ w ∈ (visits (u :: around) u.children ++
          (visits around us ++ rest)).head?, w.depth ≤ around.length := by
        rw [hchildren, visits_cons]
        intro h
        exact Nat.not_succ_le_self _ (h _ rfl)
      have hinside := inside (u :: around) (visits around us ++ rest)
        fun w hw => Nat.le_succ_of_le (hnext w hw)
      rw [if_neg hdeeper, hinside, behind around rest hrest, leaves_of_not_isLeaf hleaf,
        List.append_assoc]

/-! ### Height -/

/-- **The height of a forest**: no token is further below a token of the top level, and one is as
far. A forest without tokens has no height. -/
structure IsHeight (forest : List Token) (n : Nat) : Prop where
  le : ∀ u ∈ forest, ∀ k v, Below k u v → k ≤ n
  attained : forest ≠ [] → ∃ u ∈ forest, ∃ v, Below n u v
  empty : forest = [] → n = 0

theorem exists_levels_add_one (h : us ≠ []) : ∃ u ∈ us, u.levels + 1 = levelsForest us := by
  induction us with
  | nil => exact absurd rfl h
  | cons u us ih =>
    rw [levelsForest_cons]
    rcases Nat.le_total (levelsForest us) (u.levels + 1) with hle | hle
    · exact ⟨u, List.mem_cons_self, (Nat.max_eq_left hle).symm⟩
    · have hne : us ≠ [] := by
        rintro rfl
        exact Nat.not_succ_le_zero _ hle
      obtain ⟨v, hv, heq⟩ := ih hne
      exact ⟨v, List.mem_cons_of_mem u hv, heq.trans (Nat.max_eq_right hle).symm⟩

/-- Below a token there is one as far down as there are levels. -/
theorem exists_below (u : Token) : ∃ v, Below u.levels u v := by
  induction hn : u.levels generalizing u with
  | zero => exact ⟨u, .here u⟩
  | succ n ih =>
    have hne : u.children ≠ [] := by
      intro hnil
      rw [levels_eq, hnil] at hn
      exact Nat.succ_ne_zero n hn.symm
    obtain ⟨c, hc, hlevels⟩ := exists_levels_add_one hne
    rw [← levels_eq, hn] at hlevels
    obtain ⟨v, hv⟩ := ih c (Nat.succ.inj hlevels)
    exact ⟨v, .child hc hv⟩

theorem isHeight_levelsForest (us : List Token) : IsHeight us (levelsForest us - 1) := by
  refine ⟨fun u hu k v h => ?_, fun hne => ?_, ?_⟩
  · have hk : k ≤ u.levels := h.le_levels
    have hu : u.levels < levelsForest us := levels_lt_of_mem hu
    omega
  · obtain ⟨u, hu, hlevels⟩ := exists_levels_add_one hne
    rw [← hlevels, Nat.add_sub_cancel]
    exact ⟨u, hu, exists_below u⟩
  · rintro rfl
    rfl

/-! ### From records to tokens -/

/-- **The forest of some records**: the children of a token are the records behind its own up to
the first one that is not deeper. -/
def rebuild : List TokenRecord → List Token
  | [] => []
  | r :: rs =>
    node r.kind r.span (rebuild (rs.takeWhile (r.depth < ·.depth))) ::
      rebuild (rs.dropWhile (r.depth < ·.depth))
termination_by rs => rs.length
decreasing_by
  · exact Nat.lt_succ_of_le (List.takeWhile_prefix _).length_le
  · exact Nat.lt_succ_of_le (List.dropWhile_suffix _).length_le

theorem depth_le_of_mem_recordsForest {depth : Nat} {r : TokenRecord}
    (h : r ∈ recordsForest depth us) : depth ≤ r.depth := by
  induction us using forest_induction generalizing depth with
  | nil => cases h
  | cons u us inside behind =>
    rw [recordsForest_cons, List.mem_cons, List.mem_append] at h
    rcases h with rfl | h | h
    · exact Nat.le_refl depth
    · exact Nat.le_of_succ_le (inside h)
    · exact behind h

/-- A forest at some depth begins with a record of that depth, so nothing of it belongs to the
token in front of it. -/
theorem takeWhile_recordsForest (us : List Token) (depth : Nat) :
    (recordsForest depth us).takeWhile (depth < ·.depth) = [] ∧
      (recordsForest depth us).dropWhile (depth < ·.depth) = recordsForest depth us := by
  cases us with
  | nil => exact ⟨rfl, rfl⟩
  | cons u us =>
    rw [recordsForest_cons]
    simp

/-- **A forest is built again from its records.** -/
theorem rebuild_recordsForest (us : List Token) (depth : Nat) :
    rebuild (recordsForest depth us) = us := by
  induction us using forest_induction generalizing depth with
  | nil => rw [recordsForest, rebuild]
  | cons u us inside behind =>
    have hdeeper : ∀ r ∈ recordsForest (depth + 1) u.children, decide (depth < r.depth) = true :=
      fun r hr => decide_eq_true (depth_le_of_mem_recordsForest hr)
    obtain ⟨htake, hdrop⟩ := takeWhile_recordsForest us depth
    rw [recordsForest_cons, rebuild, List.takeWhile_append_of_pos hdeeper,
      List.dropWhile_append_of_pos hdeeper, htake, hdrop, List.append_nil, inside, behind]
    cases u
    rfl

end Token

namespace TokenStream

open Token

/-- **Both ways through a forest are faithful.** The walk ends; its records are those of the
visits, and what is visited are the tokens with their ancestors; the leaves are the tokens whose
record is the last one or is followed by one that is not deeper; the greatest depth is the height
of the forest; and from the records the forest can be built again, so forests with the same
records are the same. -/
theorem records_faithful (s : TokenStream) :
    Walk.Yields [s.tokens] s.records ∧
    s.records = (visits [] s.tokens).map Visit.record ∧
    (∀ u around, ⟨u, around⟩ ∈ visits [] s.tokens ↔ Lineage s.tokens u around) ∧
    s.leaves = (ends (visits [] s.tokens)).map Visit.token ∧
    IsHeight s.tokens s.maxDepth ∧
    rebuild s.records = s.tokens ∧
    ∀ s' : TokenStream, s'.records = s.records ↔ s'.tokens = s.tokens := by
  have hrebuild (s : TokenStream) : rebuild s.records = s.tokens := by
    rw [s.records_eq, rebuild_recordsForest]
  have hleaves : (ends (visits [] s.tokens)).map Visit.token = s.leaves := by
    rw [leaves, walk_leaves_eq, List.flatMap_singleton]
    simpa [ends] using ends_visits_append s.tokens [] [] (by simp)
  refine ⟨Walk.yields_records _, ?_, fun u around => mem_visits_iff, hleaves.symm, ?_, hrebuild s,
    fun s' => ⟨fun h => ?_, fun h => ?_⟩⟩
  · rw [s.records_eq]
    exact recordsForest_eq_visits s.tokens []
  · rw [s.maxDepth_eq]
    exact isHeight_levelsForest s.tokens
  · rw [← hrebuild s', h, hrebuild s]
  · rw [s'.records_eq, h, s.records_eq]

end TokenStream

end Polylex
