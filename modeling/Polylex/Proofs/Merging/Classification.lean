import Mathlib.Data.List.Chain
import Polylex.Proofs.Merging.Coverage

/-!
# What merging keeps, and that it leaves nothing to join

A reader asks a forest what stands at an offset: the leaf there, with the tokens around it
(`Polylex.Token.LeafAt`). In a forest that covers a span there is one answer at every offset of
it (`Polylex.Token.exists_onlyLeafAt`), and merging gives the same one, but for the span of the
leaf: a join changes no token that has children, and of the two leaves it takes away and the one
it puts there, one contains an offset exactly when the other does
(`Polylex.Token.JoinStep.classified_iff`).

Where merging begins does not matter either. A token that joins its neighbour can join it before
or after it has joined the neighbour on the other side
(`Polylex.Token.mergeInto_mergeInto`), so a forest has the same merged form as the forest after
any one join (`Polylex.Token.JoinStep.mergeFrom_eq`), and therefore as the forest cut
somewhere and merged on both sides of the cut. And it is a form in which nothing is left to join
(`Polylex.Token.settled_mergeAdjacent`).
-/

namespace Polylex.Token

variable {t u : Token} {us vs : List Token} {offset : Nat}

/-! ### The leaf at an offset -/

/-- The tokens around a leaf, the outermost first, each with its kind and its span. There are as
many as the leaf is deep. -/
abbrev Chain := List (TokenKind × Span)

/-- **A leaf at an offset**: a token without children whose span holds the offset, and the chain
of the tokens around it. -/
inductive LeafAt (offset : Nat) : List Token → Chain → Token → Prop
  | here {u : Token} (us : List Token) (leaf : u.children = []) (start : u.span.start ≤ offset)
      (stop : offset < u.span.stop) : LeafAt offset (u :: us) [] u
  | inside {u v : Token} (us : List Token) {chain : Chain} (below : LeafAt offset u.children chain v) :
      LeafAt offset (u :: us) ((u.kind, u.span) :: chain) v
  | later (u : Token) {v : Token} {us : List Token} {chain : Chain}
      (behind : LeafAt offset us chain v) : LeafAt offset (u :: us) chain v

/-- **The leaf at an offset**: there is one, with the chain of the tokens around it, and no
other. -/
structure OnlyLeafAt (offset : Nat) (us : List Token) (chain : Chain) (u : Token) : Prop where
  leafAt : LeafAt offset us chain u
  only : ∀ chain' v, LeafAt offset us chain' v → chain' = chain ∧ v = u

theorem not_leafAt_nil {chain : Chain} : ¬LeafAt offset [] chain u := nofun

theorem leafAt_cons_iff {chain : Chain} {v : Token} :
    LeafAt offset (u :: us) chain v ↔
      (chain = [] ∧ v = u ∧ u.children = [] ∧ u.span.start ≤ offset ∧ offset < u.span.stop) ∨
      (∃ rest, chain = (u.kind, u.span) :: rest ∧ LeafAt offset u.children rest v) ∨
      LeafAt offset us chain v := by
  constructor
  · intro h
    cases h with
    | here us leaf start stop => exact Or.inl ⟨rfl, rfl, leaf, start, stop⟩
    | inside us below => exact Or.inr (Or.inl ⟨_, rfl, below⟩)
    | later u behind => exact Or.inr (Or.inr behind)
  · rintro (⟨rfl, rfl, leaf, start, stop⟩ | ⟨rest, rfl, below⟩ | behind)
    · exact .here us leaf start stop
    · exact .inside us below
    · exact .later u behind

/-! ### In a forest that covers a span there is one leaf at every offset -/

/-- The leaves of a forest that covers a span hold no offset outside of it. -/
theorem LeafAt.bounds {chain : Chain} {v : Token} (h : LeafAt offset us chain v)
    {expected stop : Nat} (hordered : Ordered us) (hcheck : checkFrom expected stop us = .ok ()) :
    expected ≤ offset ∧ offset < stop := by
  induction h generalizing expected stop with
  | @here u us leaf start hstop =>
    obtain ⟨hu, -, hus⟩ := forall_occurs_cons.mp hordered
    obtain ⟨rfl, -, -, hrest⟩ := (checkFrom_cons_eq_ok_iff hu).mp hcheck
    exact ⟨start, Nat.lt_of_lt_of_le hstop (le_of_checkFrom hus hrest)⟩
  | @inside u v us chain below ih =>
    obtain ⟨hu, hchildren, hus⟩ := forall_occurs_cons.mp hordered
    obtain ⟨rfl, -, hinner, hrest⟩ := (checkFrom_cons_eq_ok_iff hu).mp hcheck
    rcases checkChildren_eq_ok_iff.mp hinner with hnil | hinner
    · rw [hnil] at below
      exact absurd below not_leafAt_nil
    · obtain ⟨hstart, hstop⟩ := ih hchildren hinner
      exact ⟨hstart, Nat.lt_of_lt_of_le hstop (le_of_checkFrom hus hrest)⟩
  | @later u v us chain behind ih =>
    obtain ⟨hu, -, hus⟩ := forall_occurs_cons.mp hordered
    obtain ⟨rfl, hlt, -, hrest⟩ := (checkFrom_cons_eq_ok_iff hu).mp hcheck
    obtain ⟨hstart, hstop⟩ := ih hus hrest
    exact ⟨by omega, hstop⟩

mutual
theorem exists_onlyLeafAt_children : ∀ (u : Token), Ordered u.children →
    checkChildren u = .ok () → u.span.start ≤ offset → offset < u.span.stop →
    u.children = [] ∨ ∃ chain v, OnlyLeafAt offset u.children chain v
  | node k s cs, hordered, hcheck, hstart, hstop => by
    rcases checkChildren_eq_ok_iff.mp hcheck with hnil | hinner
    · exact Or.inl hnil
    · exact Or.inr (exists_onlyLeafAt cs hordered hinner hstart hstop)

/-- **In a forest that covers a span there is one leaf at every offset of it.** -/
theorem exists_onlyLeafAt : ∀ (us : List Token) {expected stop : Nat}, Ordered us →
    checkFrom expected stop us = .ok () → expected ≤ offset → offset < stop →
    ∃ chain v, OnlyLeafAt offset us chain v
  | [], expected, stop, _, hcheck, hstart, hstop => by
    rw [checkFrom] at hcheck
    split at hcheck
    next heq => omega
    next => cases hcheck
  | u :: us, expected, stop, hordered, hcheck, hstart, hstop => by
    obtain ⟨hu, hchildren, hus⟩ := forall_occurs_cons.mp hordered
    obtain ⟨rfl, hlt, hinner, hrest⟩ := (checkFrom_cons_eq_ok_iff hu).mp hcheck
    by_cases hoffset : offset < u.span.stop
    -- The offset is in the first token, and so in none of those behind it.
    · have hlater (chain : Chain) (v : Token) : ¬LeafAt offset us chain v := by
        intro h
        have hbounds := h.bounds hus hrest
        omega
      rcases exists_onlyLeafAt_children u hchildren hinner hstart hoffset with
        hnil | ⟨chain, v, hv, honly⟩
      · refine ⟨[], u, .here us hnil hstart hoffset, fun chain' v' h => ?_⟩
        rcases leafAt_cons_iff.mp h with ⟨rfl, rfl, -⟩ | ⟨rest, -, h⟩ | h
        · exact ⟨rfl, rfl⟩
        · rw [hnil] at h
          exact absurd h not_leafAt_nil
        · exact absurd h (hlater _ _)
      · refine ⟨_, v, .inside us hv, fun chain' v' h => ?_⟩
        rcases leafAt_cons_iff.mp h with ⟨-, -, hnil, -⟩ | ⟨rest, rfl, hbelow⟩ | h
        · rw [hnil] at hv
          exact absurd hv not_leafAt_nil
        · obtain ⟨rfl, rfl⟩ := honly _ _ hbelow
          exact ⟨rfl, rfl⟩
        · exact absurd h (hlater _ _)
    -- The offset is behind the first token, and so not inside it.
    · obtain ⟨chain, v, hv, honly⟩ := exists_onlyLeafAt us hus hrest (by omega) hstop
      refine ⟨chain, v, .later u hv, fun chain' v' h => ?_⟩
      rcases leafAt_cons_iff.mp h with ⟨-, -, -, -, h⟩ | ⟨rest, -, h⟩ | h
      · exact absurd h hoffset
      · rcases checkChildren_eq_ok_iff.mp hinner with hnil | hinner
        · rw [hnil] at h
          exact absurd h not_leafAt_nil
        · exact absurd (h.bounds hchildren hinner).2 hoffset
      · exact honly _ _ h
end

/-! ### A join keeps what stands at an offset -/

/-- An offset has a kind and a chain of tokens around it: those of a leaf there. -/
def Classified (offset : Nat) (us : List Token) (chain : Chain) (k : TokenKind) : Prop :=
  ∃ u, LeafAt offset us chain u ∧ u.kind = k

theorem classified_cons_iff {chain : Chain} {k : TokenKind} :
    Classified offset (u :: us) chain k ↔
      (chain = [] ∧ u.kind = k ∧ u.children = [] ∧ u.span.start ≤ offset ∧
        offset < u.span.stop) ∨
      (∃ rest, chain = (u.kind, u.span) :: rest ∧ Classified offset u.children rest k) ∨
      Classified offset us chain k := by
  simp only [Classified, leafAt_cons_iff]
  constructor
  · rintro ⟨v, ⟨rfl, rfl, h⟩ | ⟨rest, rfl, h⟩ | h, rfl⟩
    · exact Or.inl ⟨rfl, rfl, h⟩
    · exact Or.inr (Or.inl ⟨rest, rfl, v, h, rfl⟩)
    · exact Or.inr (Or.inr ⟨v, h, rfl⟩)
  · rintro (⟨rfl, rfl, h⟩ | ⟨rest, rfl, v, h, rfl⟩ | ⟨v, h, rfl⟩)
    · exact ⟨u, Or.inl ⟨rfl, rfl, h⟩, rfl⟩
    · exact ⟨v, Or.inr (Or.inl ⟨rest, rfl, h⟩), rfl⟩
    · exact ⟨v, Or.inr (Or.inr h), rfl⟩

/-- **A join keeps the kind of every offset and the chain of tokens around it.** -/
theorem JoinStep.classified_iff (h : JoinStep us vs) (hordered : Ordered us) {chain : Chain}
    {k : TokenKind} : Classified offset vs chain k ↔ Classified offset us chain k := by
  induction h generalizing chain with
  | @pair t u us joined =>
    obtain ⟨hkind, ht, hu, htouch⟩ := joins_iff.mp joined
    obtain ⟨htle, -, hrest⟩ := forall_occurs_cons.mp hordered
    obtain ⟨hule, -, -⟩ := forall_occurs_cons.mp hrest
    have hnone (rest : Chain) : ¬Classified offset [] rest k := fun ⟨v, h, _⟩ => not_leafAt_nil h
    have hstart : (join t u).span.start = t.span.start := Nat.min_eq_left (by omega)
    have hstop : (join t u).span.stop = u.span.stop := Nat.max_eq_right (by omega)
    have hjoin : (join t u).kind = t.kind ∧ (join t u).children = [] := ⟨rfl, rfl⟩
    -- An offset is between the outer ends exactly when it is in one of the two tokens.
    have hsplit : t.span.start ≤ offset ∧ offset < u.span.stop ↔
        (t.span.start ≤ offset ∧ offset < t.span.stop) ∨
          (u.span.start ≤ offset ∧ offset < u.span.stop) := by omega
    simp only [classified_cons_iff, hjoin, ht, hu, hnone, and_false, exists_false, false_or,
      true_and, hstart, hstop, ← hkind, hsplit, and_or_left, or_assoc]
  | @inside k' s cs ds us step ih =>
    obtain ⟨-, hcs, -⟩ := forall_occurs_cons.mp hordered
    have hne := step.ne_nil
    simp only [classified_cons_iff, children_node, kind_node, span_node, hne.1, hne.2, false_and,
      and_false, ih hcs]
  | @later u us vs step ih =>
    obtain ⟨-, -, hus⟩ := forall_occurs_cons.mp hordered
    simp only [classified_cons_iff, ih hus]

theorem classified_mergeAdjacent (hordered : Ordered us) {chain : Chain} {k : TokenKind} :
    Classified offset (mergeAdjacent us) chain k ↔ Classified offset us chain k := by
  suffices h : Ordered (mergeAdjacent us) ∧
      (Classified offset (mergeAdjacent us) chain k ↔ Classified offset us chain k) from h.2
  refine mergeAdjacent_induction (P := fun vs =>
    Ordered vs ∧ (Classified offset vs chain k ↔ Classified offset us chain k)) ?_
      ⟨hordered, Iff.rfl⟩
  rintro vs vs' step ⟨hvs, hiff⟩
  exact ⟨step.ordered hvs, (step.classified_iff hvs).trans hiff⟩

/-! ### Merging may begin anywhere -/

/-- **A token that joins on both sides joins either side first**, with the same result. -/
theorem mergeInto_mergeInto (merged : List Token) (h : joins t u = true)
    (ht : t.span.start ≤ t.span.stop) :
    mergeInto (mergeInto merged t) u = mergeInto merged (join t u) := by
  obtain ⟨hkind, htleaf, huleaf, htouch⟩ := joins_iff.mp h
  have hstart : (join t u).span.start = t.span.start := Nat.min_eq_left (by omega)
  cases merged with
  | nil => exact mergeInto_of_joins [] h
  | cons r before =>
    have hsame : joins r (join t u) = true ↔ joins r t = true := by
      rw [joins_iff, joins_iff, hstart, htleaf]
      rfl
    by_cases hrt : joins r t = true
    · obtain ⟨hrkind, hrleaf, -, hrtouch⟩ := joins_iff.mp hrt
      have hstop : (join r t).span.stop = t.span.stop := Nat.max_eq_right (by omega)
      have hru : joins (join r t) u = true :=
        joins_iff.mpr ⟨hrkind.trans hkind, rfl, huleaf, hstop.trans htouch⟩
      have hcover : (r.span.cover t.span).cover u.span = r.span.cover (t.span.cover u.span) := by
        simp only [Span.cover, Nat.min_assoc, Nat.max_assoc]
      have hjoin : join (join r t) u = join r (join t u) := congrArg (leaf r.kind) hcover
      rw [mergeInto_of_joins before hrt, mergeInto_of_joins before hru,
        mergeInto_of_joins before (hsame.mpr hrt), hjoin]
    · rw [mergeInto_of_not_joins before hrt, mergeInto_of_joins _ h,
        mergeInto_of_not_joins before (mt hsame.mp hrt)]

theorem mergeChildren_of_leaf (h : u.children = []) : mergeChildren u = u := by
  cases u with
  | node k s cs =>
    obtain rfl : cs = [] := h
    rfl

/-- **A forest is merged to what it is merged to after a join.** -/
theorem JoinStep.mergeFrom_eq (h : JoinStep us vs) (hordered : Ordered us) (merged : List Token) :
    mergeFrom merged vs = mergeFrom merged us := by
  induction h generalizing merged with
  | @pair t u us joined =>
    obtain ⟨-, ht, hu, -⟩ := joins_iff.mp joined
    obtain ⟨htle, -, -⟩ := forall_occurs_cons.mp hordered
    have hjoin : mergeChildren (join t u) = join t u := mergeChildren_of_leaf rfl
    rw [mergeFrom, mergeFrom, mergeFrom, mergeChildren_of_leaf ht, mergeChildren_of_leaf hu, hjoin,
      mergeInto_mergeInto merged joined htle]
  | @inside k s cs ds us step ih =>
    obtain ⟨-, hcs, -⟩ := forall_occurs_cons.mp hordered
    rw [mergeFrom, mergeFrom, mergeChildren, mergeChildren, ih hcs]
  | @later u us vs step ih =>
    obtain ⟨-, -, hus⟩ := forall_occurs_cons.mp hordered
    rw [mergeFrom, mergeFrom, ih hus]

theorem Joins.mergeAdjacent_eq (h : Joins us vs) (hordered : Ordered us) :
    mergeAdjacent vs = mergeAdjacent us := by
  have hall : Ordered vs ∧ mergeAdjacent vs = mergeAdjacent us := by
    induction h with
    | refl => exact ⟨hordered, rfl⟩
    | tail _ step ih =>
      obtain ⟨hvs, heq⟩ := ih
      exact ⟨step.ordered hvs, (step.mergeFrom_eq hvs []).trans heq⟩
  exact hall.2

/-! ### Merging leaves nothing to join -/

/-- Two neighbours that are not to be joined: they differ in kind, one of them has children, or
they do not touch. -/
def Apart (t u : Token) : Prop :=
  ¬(t.kind = u.kind ∧ t.children = [] ∧ u.children = [] ∧ t.span.stop = u.span.start)

theorem apart_iff : Apart t u ↔ ¬joins t u = true := not_congr joins_iff.symm

/-- **A settled forest**: at no level of it there are two neighbours to be joined. -/
structure Settled (us : List Token) : Prop where
  top : us.IsChain Apart
  inside : ∀ u, Occurs u us → u.children.IsChain Apart

theorem occurs_iff_exists_mem : Occurs u us ↔ ∃ t ∈ us, u = t ∨ Occurs u t.children := by
  constructor
  · intro h
    induction h with
    | head us => exact ⟨u, List.mem_cons_self, Or.inl rfl⟩
    | child below _ => exact ⟨_, List.mem_cons_self, Or.inr below⟩
    | tail _ ih =>
      obtain ⟨t, ht, hu⟩ := ih
      exact ⟨t, List.mem_cons_of_mem _ ht, hu⟩
  · rintro ⟨t, ht, hu⟩
    induction us with
    | nil => cases ht
    | cons v us ih =>
      rcases List.mem_cons.mp ht with rfl | ht
      · rcases hu with rfl | hu
        · exact .head us
        · exact .child hu
      · exact .tail (ih ht)

theorem settled_iff :
    Settled us ↔ us.IsChain Apart ∧ ∀ t ∈ us, Settled t.children := by
  constructor
  · rintro ⟨htop, hinside⟩
    refine ⟨htop, fun t ht => ⟨hinside t (occurs_iff_exists_mem.mpr ⟨t, ht, Or.inl rfl⟩), ?_⟩⟩
    exact fun u hu => hinside u (occurs_iff_exists_mem.mpr ⟨t, ht, Or.inr hu⟩)
  · rintro ⟨htop, hall⟩
    refine ⟨htop, fun u hu => ?_⟩
    obtain ⟨t, ht, rfl | hu⟩ := occurs_iff_exists_mem.mp hu
    · exact (hall u ht).top
    · exact (hall t ht).inside u hu

/-- **What the loop has merged already**, in reverse. -/
structure Merged (merged : List Token) : Prop where
  apart : merged.IsChain fun u t => Apart t u
  ordered : ∀ t ∈ merged, t.span.start ≤ t.span.stop
  settled : ∀ t ∈ merged, Settled t.children

theorem merged_nil : Merged [] := ⟨.nil, nofun, nofun⟩

theorem settled_nil : Settled [] := settled_iff.mpr ⟨.nil, nofun⟩

/-- A join makes no new neighbours in front of it: it starts where its first token does. -/
theorem Merged.mergeInto {merged : List Token} (h : Merged merged)
    (hu : u.span.start ≤ u.span.stop) (hsettled : Settled u.children) :
    Merged (mergeInto merged u) := by
  cases merged with
  | nil => exact ⟨.singleton u, List.forall_mem_singleton.mpr hu, List.forall_mem_singleton.mpr hsettled⟩
  | cons t before =>
    obtain ⟨hapart, hordered, hall⟩ := h
    obtain ⟨ht, hbefore⟩ := List.forall_mem_cons.mp hordered
    obtain ⟨-, hall'⟩ := List.forall_mem_cons.mp hall
    by_cases htu : joins t u = true
    · obtain ⟨-, htleaf, -, htouch⟩ := joins_iff.mp htu
      have hstart : (join t u).span.start = t.span.start := Nat.min_eq_left (by omega)
      have hjoin : (join t u).span.start ≤ (join t u).span.stop := by
        rw [hstart]
        exact Nat.le_trans ht (Nat.le_max_left _ _)
      rw [mergeInto_of_joins before htu]
      refine ⟨?_, List.forall_mem_cons.mpr ⟨hjoin, hbefore⟩,
        List.forall_mem_cons.mpr ⟨settled_nil, hall'⟩⟩
      cases before with
      | nil => exact .singleton _
      | cons r before =>
        obtain ⟨hrt, hrest⟩ := List.isChain_cons_cons.mp hapart
        refine List.isChain_cons_cons.mpr ⟨fun ⟨hkind, hr, _, hrtouch⟩ => ?_, hrest⟩
        exact hrt ⟨hkind, hr, htleaf, hrtouch.trans hstart⟩
    · rw [mergeInto_of_not_joins before htu]
      exact ⟨List.isChain_cons_cons.mpr ⟨apart_iff.mpr htu, hapart⟩,
        List.forall_mem_cons.mpr ⟨hu, hordered⟩, List.forall_mem_cons.mpr ⟨hsettled, hall⟩⟩

mutual
theorem settled_mergeChildren : ∀ u : Token, Ordered u.children →
    Settled (mergeChildren u).children
  | node _ _ cs, h => settled_mergeFrom [] cs merged_nil h

theorem settled_mergeFrom : ∀ merged us : List Token, Merged merged → Ordered us →
    Settled (mergeFrom merged us)
  | merged, [], hmerged, _ => by
    rw [mergeFrom]
    exact settled_iff.mpr ⟨List.isChain_reverse.mpr hmerged.apart,
      fun t ht => hmerged.settled t (List.mem_reverse.mp ht)⟩
  | merged, u :: us, hmerged, hordered => by
    obtain ⟨hu, hchildren, hus⟩ := forall_occurs_cons.mp hordered
    have hspan : (mergeChildren u).span = u.span := by
      cases u
      rfl
    rw [mergeFrom]
    refine settled_mergeFrom _ us (hmerged.mergeInto ?_ (settled_mergeChildren u hchildren)) hus
    rwa [hspan]
end

/-- **Merging leaves nothing to join**, at any level. -/
theorem settled_mergeAdjacent (hordered : Ordered us) : Settled (mergeAdjacent us) :=
  settled_mergeFrom [] us merged_nil hordered

/-! ### What merging does -/

/-- **Merging keeps what stands where, and it is complete.** Take a forest whose spans are
ordered.

* If the forest covers a span, there is one leaf at every offset of the span, and one in the
  merged forest. They have the same kind, and the same tokens around them, with their kinds and
  spans; so they are equally deep.
* Whether it covers a span or not, in the merged forest no two neighbours at any level have no
  children, the same kind, and touch.
* Where a list of tokens is cut does not matter: it is merged to what its two parts, each merged
  on its own, are merged to. So what is merged is not changed by merging it again. -/
theorem mergeAdjacent_classifies (xs ys : List Token) (hxs : Ordered xs) (hys : Ordered ys) :
    (∀ span, checkCoverage xs span = .ok () → ∀ offset, span.start ≤ offset → offset < span.stop →
      ∃ chain u v, OnlyLeafAt offset xs chain u ∧ OnlyLeafAt offset (mergeAdjacent xs) chain v ∧
        v.kind = u.kind) ∧
    Settled (mergeAdjacent xs) ∧
    mergeAdjacent (xs ++ ys) = mergeAdjacent (mergeAdjacent xs ++ mergeAdjacent ys) ∧
    mergeAdjacent (mergeAdjacent xs) = mergeAdjacent xs := by
  refine ⟨fun span hcovered offset hstart hstop => ?_, settled_mergeAdjacent hxs, ?_,
    (joins_mergeAdjacent xs).mergeAdjacent_eq hxs⟩
  · have hmerged : checkFrom span.start span.stop (mergeAdjacent xs) = .ok () :=
      (checkFrom_mergeAdjacent (fun u => start_lt_stop_of_checkFrom hxs hcovered) _ _).trans hcovered
    obtain ⟨chain, u, hu⟩ := exists_onlyLeafAt xs hxs hcovered hstart hstop
    obtain ⟨chain', v, hv⟩ := exists_onlyLeafAt _ (ordered_mergeAdjacent hxs) hmerged hstart hstop
    obtain ⟨w, hw, hkind⟩ := (classified_mergeAdjacent hxs).mpr ⟨u, hu.leafAt, rfl⟩
    obtain ⟨rfl, rfl⟩ := hv.only _ _ hw
    exact ⟨chain, u, w, hu, hv, hkind⟩
  · have hboth : Ordered (xs ++ ys) := ordered_append hxs hys
    exact (((joins_mergeAdjacent xs).append (joins_mergeAdjacent ys)).mergeAdjacent_eq hboth).symm

/-- The case of two characters in front of a literal of two pieces, and another piece behind it.
The offset of the second piece is in a leaf that is longer once the two are joined, inside the
same literal; and the last piece joins neither the literal nor what is inside it. -/
theorem mergeAdjacent_classifies_pieces :
    let xs := [leaf .text ⟨0, 1⟩, leaf .text ⟨1, 2⟩,
      node .string ⟨2, 4⟩ [leaf .string ⟨2, 3⟩, leaf .string ⟨3, 4⟩]]
    let ys := [leaf .string ⟨4, 5⟩]
    Ordered xs ∧ Ordered ys ∧ checkCoverage xs ⟨0, 4⟩ = .ok () ∧
      (∃ chain u v, OnlyLeafAt 3 xs chain u ∧ OnlyLeafAt 3 (mergeAdjacent xs) chain v ∧
        v.kind = u.kind) ∧
      Settled (mergeAdjacent xs) ∧ (mergeAdjacent (xs ++ ys)).length = 3 ∧
      mergeAdjacent (xs ++ ys) = mergeAdjacent (mergeAdjacent xs ++ mergeAdjacent ys) := by
  intro xs ys
  have hxs : Ordered xs := by
    simp [Ordered, xs, forall_occurs_cons, not_occurs_nil, leaf]
  have hys : Ordered ys := by
    simp [Ordered, ys, forall_occurs_cons, not_occurs_nil, leaf]
  have hcovered : checkCoverage xs ⟨0, 4⟩ = .ok () := rfl
  obtain ⟨hleaf, hsettled, hcut, -⟩ := mergeAdjacent_classifies xs ys hxs hys
  exact ⟨hxs, hys, hcovered, hleaf ⟨0, 4⟩ hcovered 3 (by decide) (by decide), hsettled, rfl, hcut⟩

end Polylex.Token
