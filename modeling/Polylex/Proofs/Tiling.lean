import Polylex.Proofs.Merging.Joining
import Polylex.Proofs.Offset

/-!
# Forests that tile a text

A forest *tiles* a text that starts at an offset (`Polylex.Token.Tiles`) if the text falls
into nonempty pieces, one for every token in order, each token spans exactly its piece, and
the children of a token, where it has any, tile that piece in turn. It is the one statement
about positions that every producer of tokens has to establish, and everything a reader of
tokens relies on is a consequence:

* the coverage check accepts the forest (`Polylex.Token.Tiles.checkCoverage_eq_ok`);
* no token at any level is empty and all ends are boundaries of the text
  (`Polylex.Token.Tiles.isRange_of_occurs`, `Polylex.Token.Tiles.start_lt_stop_of_occurs`);
* the leaves spell out the text (`Polylex.Token.Tiles.flatMap_leaves`);
* merging neighbours keeps it (`Polylex.Token.Tiles.mergeAdjacent`).

The text is part of the statement and not only its width: a piece is a text, so its ends
are boundaries without further ado.
-/

namespace Polylex

/-- Whether a span lies inside another one. -/
def Span.encloses (s u : Span) : Bool := decide (s.start ≤ u.start) && decide (u.stop ≤ s.stop)

theorem Span.encloses_iff {s u : Span} :
    s.encloses u = true ↔ s.start ≤ u.start ∧ u.stop ≤ s.stop := by
  rw [encloses, Bool.and_eq_true, decide_eq_true_iff, decide_eq_true_iff]

namespace Token

mutual
/-- A token over a nonempty text at an offset: it spans the text, and its children, if it
has any, tile it. -/
def Over (offset : Nat) (t : Text) : Token → Prop
  | node _ s cs => t ≠ [] ∧ s = ⟨offset, offset + t.width⟩ ∧ (cs = [] ∨ Tiles offset t cs)

/-- **A forest tiles a text** at an offset: the text falls into one nonempty piece for every
token, in order. -/
def Tiles (offset : Nat) (t : Text) : List Token → Prop
  | [] => t = []
  | u :: us => ∃ p r, t = p ++ r ∧ Over offset p u ∧ Tiles (offset + p.width) r us
end

/-- A token occurs in a forest, at whatever level. -/
inductive Occurs (u : Token) : List Token → Prop
  | head (us : List Token) : Occurs u (u :: us)
  | child {v : Token} {us : List Token} : Occurs u v.children → Occurs u (v :: us)
  | tail {v : Token} {us : List Token} : Occurs u us → Occurs u (v :: us)

/-- **An induction over forests**: what is inside the first token, and what is behind it. -/
@[elab_as_elim]
theorem forest_induction {P : List Token → Prop} (nil : P [])
    (cons : ∀ u us, P u.children → P us → P (u :: us)) : ∀ us, P us
  | [] => nil
  | node k s cs :: us =>
    cons (node k s cs) us (forest_induction nil cons cs) (forest_induction nil cons us)

variable {offset : Nat} {t p r : Text} {u : Token} {us vs : List Token}

/-! ### Building and cutting tilings -/

@[simp] theorem tiles_nil : Tiles offset t [] ↔ t = [] := Iff.rfl

theorem tiles_cons :
    Tiles offset t (u :: us) ↔
      ∃ p r, t = p ++ r ∧ Over offset p u ∧ Tiles (offset + p.width) r us :=
  Iff.rfl

theorem over_leaf {kind : TokenKind} (h : t ≠ []) :
    Over offset t (leaf kind ⟨offset, offset + t.width⟩) :=
  ⟨h, rfl, Or.inl rfl⟩

theorem over_node {kind : TokenKind} (h : t ≠ []) (hcs : Tiles offset t us) :
    Over offset t (node kind ⟨offset, offset + t.width⟩ us) :=
  ⟨h, rfl, Or.inr hcs⟩

theorem Over.ne_nil (h : Over offset t u) : t ≠ [] := by
  cases u
  exact h.1

theorem Over.span_eq (h : Over offset t u) : u.span = ⟨offset, offset + t.width⟩ := by
  cases u
  exact h.2.1

theorem Over.children (h : Over offset t u) : u.children = [] ∨ Tiles offset t u.children := by
  cases u
  exact h.2.2

theorem Over.tiles (h : Over offset t u) : Tiles offset t [u] :=
  ⟨t, [], by simp, h, rfl⟩

/-- One tiling after another. -/
theorem Tiles.append (h : Tiles offset p us) (h' : Tiles (offset + p.width) r vs) :
    Tiles offset (p ++ r) (us ++ vs) := by
  induction us generalizing offset p with
  | nil =>
    obtain rfl := tiles_nil.mp h
    simpa using h'
  | cons u us ih =>
    obtain ⟨q, q', rfl, hu, hus⟩ := h
    refine ⟨q, q' ++ r, by simp, hu, ih hus ?_⟩
    simpa [Nat.add_assoc] using h'

/-- A tiling is cut where its forest is cut. -/
theorem Tiles.of_append (h : Tiles offset t (us ++ vs)) :
    ∃ p r, t = p ++ r ∧ Tiles offset p us ∧ Tiles (offset + p.width) r vs := by
  induction us generalizing offset t with
  | nil => exact ⟨[], t, rfl, rfl, by simpa using h⟩
  | cons u us ih =>
    obtain ⟨q, q', rfl, hu, hus⟩ := h
    obtain ⟨p, r, rfl, hp, hr⟩ := ih hus
    refine ⟨q ++ p, r, by simp, ⟨q, p, rfl, hu, hp⟩, ?_⟩
    simpa [Nat.add_assoc] using hr

/-! ### The coverage check -/

mutual
theorem Over.checkChildren_eq_ok :
    ∀ {u : Token} {offset : Nat} {t : Text}, Over offset t u → checkChildren u = .ok ()
  | node _ _ [], _, _, _ => rfl
  | node _ _ (_ :: _), _, _, h => by
    obtain ⟨-, rfl, hnil | hcs⟩ := h
    · cases hnil
    · exact hcs.checkFrom_eq_ok

/-- **The coverage check accepts a tiling.** -/
theorem Tiles.checkFrom_eq_ok :
    ∀ {us : List Token} {offset : Nat} {t : Text}, Tiles offset t us →
      checkFrom offset (offset + t.width) us = .ok ()
  | [], offset, t, h => by
    obtain rfl := tiles_nil.mp h
    simp [checkFrom]
  | u :: us, offset, t, h => by
    obtain ⟨p, r, rfl, hu, hus⟩ := h
    have hp : 0 < p.width := Text.width_pos hu.ne_nil
    have hempty : u.span.isEmpty = false := by
      rw [hu.span_eq]
      simp only [Span.isEmpty, beq_eq_false_iff_ne]
      omega
    have hrest := hus.checkFrom_eq_ok
    rw [checkFrom, hempty, hu.checkChildren_eq_ok, hu.span_eq]
    simpa [Nat.add_assoc] using hrest
end

theorem Tiles.checkCoverage_eq_ok (h : Tiles offset t us) :
    checkCoverage us ⟨offset, offset + t.width⟩ = .ok () :=
  h.checkFrom_eq_ok

/-! ### Tokens at every level -/

/-- Every token of a tiling is over a piece of the text. -/
theorem Tiles.over_of_occurs (hocc : Occurs u us) :
    ∀ {offset : Nat} {t : Text}, Tiles offset t us →
      ∃ p q r, t = p ++ q ++ r ∧ Over (offset + p.width) q u := by
  induction hocc with
  | head us =>
    rintro offset t ⟨q, r, rfl, hu, -⟩
    exact ⟨[], q, r, rfl, by simpa using hu⟩
  | @child v us hin ih =>
    rintro offset t ⟨q, r, rfl, hv, -⟩
    -- The children tile the piece of their parent, so the piece is found inside it.
    rcases hv.children with hnil | hcs
    · rw [hnil] at hin
      cases hin
    · obtain ⟨p, q', r', rfl, hu⟩ := ih hcs
      exact ⟨p, q', r' ++ r, by simp, hu⟩
  | tail _ ih =>
    rintro offset t ⟨q, r, rfl, -, hus⟩
    obtain ⟨p, q', r', rfl, hu⟩ := ih hus
    exact ⟨q ++ p, q', r', by simp, by simpa [Nat.add_assoc] using hu⟩

/-- No token of a tiling is empty. -/
theorem Tiles.start_lt_stop_of_occurs (h : Tiles offset t us) (hocc : Occurs u us) :
    u.span.start < u.span.stop := by
  obtain ⟨p, q, r, -, hu⟩ := h.over_of_occurs hocc
  have hq : 0 < q.width := Text.width_pos hu.ne_nil
  rw [hu.span_eq]
  exact Nat.lt_add_of_pos_right hq

/-- The tokens of a tiling of a whole text are over ranges of it. -/
theorem Tiles.isRange_of_occurs (h : Tiles 0 t us) (hocc : Occurs u us) : t.IsRange u.span := by
  obtain ⟨p, q, r, rfl, hu⟩ := h.over_of_occurs hocc
  refine Text.isRange_iff_exists.mpr ⟨p, q, r, rfl, ?_⟩
  rw [hu.span_eq, Nat.zero_add]

/-- The top level of a tiling stays inside the text. -/
theorem Tiles.span_of_mem (h : Tiles offset t us) (hu : u ∈ us) :
    offset ≤ u.span.start ∧ u.span.start < u.span.stop ∧ u.span.stop ≤ offset + t.width := by
  obtain ⟨before, after, rfl⟩ := List.append_of_mem hu
  obtain ⟨p, r, rfl, -, q, s, rfl, hq, -⟩ := h.of_append
  have hpos : 0 < q.width := Text.width_pos hq.ne_nil
  rw [hq.span_eq]
  simp only [Text.width_append]
  omega

section Filter

variable {s : Span}

/-- All tokens of a tiling lie inside a span that holds the text. -/
theorem Tiles.filter_inside (h : Tiles offset t us) (hstart : s.start ≤ offset)
    (hstop : offset + t.width ≤ s.stop) : us.filter (s.encloses ·.span) = us := by
  refine List.filter_eq_self.mpr fun u hu => ?_
  obtain ⟨hlow, -, hhigh⟩ := h.span_of_mem hu
  rw [Span.encloses_iff]
  omega

/-- No token of a tiling lies inside a span that begins after the text. -/
theorem Tiles.filter_before (h : Tiles offset t us) (hstart : offset + t.width ≤ s.start) :
    us.filter (s.encloses ·.span) = [] := by
  refine List.filter_eq_nil_iff.mpr fun u hu => ?_
  obtain ⟨-, hlt, hhigh⟩ := h.span_of_mem hu
  rw [Span.encloses_iff]
  omega

/-- No token of a tiling lies inside a span that ends in front of the text. -/
theorem Tiles.filter_after (h : Tiles offset t us) (hstop : s.stop ≤ offset) :
    us.filter (s.encloses ·.span) = [] := by
  refine List.filter_eq_nil_iff.mpr fun u hu => ?_
  obtain ⟨hlow, hlt, -⟩ := h.span_of_mem hu
  rw [Span.encloses_iff]
  omega

end Filter

/-! ### Leaves -/

mutual
/-- The leaves of a token. -/
def leaves : Token → List Token
  | node k s cs => if cs.isEmpty then [node k s cs] else leavesForest cs

/-- The leaves of a forest, in the order of the text. -/
def leavesForest : List Token → List Token
  | [] => []
  | u :: us => leaves u ++ leavesForest us
end

theorem leaves_of_isLeaf (h : u.isLeaf = true) : leaves u = [u] := by
  cases u with
  | node k s cs => exact if_pos h

theorem leaves_of_not_isLeaf (h : ¬u.isLeaf = true) : leaves u = leavesForest u.children := by
  cases u with
  | node k s cs => exact if_neg h

/-- The walk that keeps its open levels finds the leaves of what is left of each level. -/
theorem walk_leaves_eq (levels : List (List Token)) :
    Walk.leaves levels = levels.flatMap leavesForest := by
  induction levels using Walk.leaves.induct with
  | case1 => rw [Walk.leaves, List.flatMap_nil]
  | case2 outer ih => rw [Walk.leaves, ih, List.flatMap_cons, leavesForest, List.nil_append]
  | case3 u us outer h ih =>
    rw [Walk.leaves, if_pos h, ih]
    simp only [List.flatMap_cons, leavesForest, leaves_of_isLeaf h, List.cons_append,
      List.nil_append]
  | case4 u us outer h ih =>
    rw [Walk.leaves, if_neg h, ih]
    simp only [List.flatMap_cons, leavesForest, leaves_of_not_isLeaf h, List.append_assoc]

mutual
theorem Over.flatMap_leaves :
    ∀ {u : Token} (b : Text) {t : Text} (a : Text), Over b.width t u →
      (leaves u).flatMap (fun v => (b ++ t ++ a).slice v.span) = t
  | node _ _ [], b, t, a, h => by
    obtain ⟨-, rfl, -⟩ := h
    simpa [leaves] using Text.slice_append b t a
  | node _ _ (_ :: _), b, t, a, h => by
    obtain ⟨-, -, hnil | hcs⟩ := h
    · cases hnil
    · exact hcs.flatMap_leavesForest b a

theorem Tiles.flatMap_leavesForest :
    ∀ {us : List Token} (b : Text) {t : Text} (a : Text), Tiles b.width t us →
      (leavesForest us).flatMap (fun v => (b ++ t ++ a).slice v.span) = t
  | [], _, t, _, h => by
    obtain rfl := tiles_nil.mp h
    rfl
  | u :: us, b, t, a, h => by
    obtain ⟨p, r, rfl, hu, hus⟩ := h
    rw [← Text.width_append] at hus
    have hhead := hu.flatMap_leaves b (r ++ a)
    have htail := hus.flatMap_leavesForest (b ++ p) a
    simp only [List.append_assoc] at hhead htail ⊢
    rw [leavesForest, List.flatMap_append, hhead, htail]
end

/-- **The leaves of a tiling spell out its text.** -/
theorem Tiles.flatMap_leaves {s : TokenStream} (h : Tiles 0 t s.tokens) :
    s.leaves.flatMap (fun v => t.slice v.span) = t := by
  have hall := Tiles.flatMap_leavesForest [] [] (t := t) h
  rw [TokenStream.leaves, walk_leaves_eq, List.flatMap_singleton]
  simpa using hall

/-! ### Merging -/

/-- **A join keeps a tiling**: the token that two neighbours become is over the pieces of
both. -/
theorem JoinStep.tiles (h : JoinStep us vs) (ht : Tiles offset t us) : Tiles offset t vs := by
  induction h generalizing offset t with
  | @pair u v us joined =>
    obtain ⟨p, _, rfl, hu, q, r, rfl, hv, hus⟩ := ht
    have hne : p ++ q ≠ [] := by simp [hu.ne_nil]
    have hcover : u.span.cover v.span = ⟨offset, offset + (p ++ q).width⟩ := by
      rw [hu.span_eq, hv.span_eq, Text.width_append]
      simp only [Span.cover, Span.mk.injEq]
      omega
    have hover : Over offset (p ++ q) (join u v) := by
      rw [join, hcover]
      exact over_leaf hne
    refine ⟨p ++ q, r, by rw [List.append_assoc], hover, ?_⟩
    rwa [Text.width_append, ← Nat.add_assoc]
  | @inside k s cs ds us step ih =>
    obtain ⟨p, r, rfl, ⟨hne, rfl, hnil | hcs⟩, hus⟩ := ht
    · exact absurd hnil step.ne_nil.1
    · exact ⟨p, r, rfl, over_node hne (ih hcs), hus⟩
  | later u step ih =>
    obtain ⟨p, r, rfl, hu, hus⟩ := ht
    exact ⟨p, r, rfl, hu, ih hus⟩

/-- **Merging keeps a tiling.** -/
theorem Tiles.mergeAdjacent (h : Tiles offset t us) : Tiles offset t (mergeAdjacent us) :=
  mergeAdjacent_induction JoinStep.tiles h

end Token

end Polylex
