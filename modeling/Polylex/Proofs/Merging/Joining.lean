import Mathlib.Logic.Relation
import Polylex.Token.Coverage

/-!
# Merging is joining, one pair at a time

The loop that merges a forest goes through it from the left, with the tokens that are merged
already in reverse, and it merges the children of a token before the token itself. All that is
left of this order here is a relation of one step: somewhere in a forest, at any level, two
neighbours that join are made one (`Polylex.Token.JoinStep`). The loop makes no other steps
(`Polylex.Token.joins_mergeAdjacent`).

So whatever every single join keeps is kept by merging (`Polylex.Token.mergeAdjacent_induction`),
and no other fact about merging needs to know the loop, but one: that it leaves nothing to join.
-/

namespace Polylex.Token

variable {t u v : Token} {us vs : List Token}

/-! ### Two neighbours -/

/-- Two neighbours join if they have the same kind, both have no children, and they touch. -/
theorem joins_iff :
    joins t u = true ↔
      t.kind = u.kind ∧ t.children = [] ∧ u.children = [] ∧ t.span.stop = u.span.start := by
  simp only [joins, isLeaf, Bool.and_eq_true, beq_iff_eq, List.isEmpty_iff, and_assoc]

/-- The token that two neighbours become. -/
def join (t u : Token) : Token := leaf t.kind (t.span.cover u.span)

theorem mergeInto_of_joins (before : List Token) (h : joins t u = true) :
    mergeInto (t :: before) u = join t u :: before := if_pos h

theorem mergeInto_of_not_joins (before : List Token) (h : ¬joins t u = true) :
    mergeInto (t :: before) u = u :: t :: before := if_neg h

/-! ### One join -/

/-- **One join**: two neighbours become one, in a forest or among the children of one of its
tokens. -/
inductive JoinStep : List Token → List Token → Prop
  | pair {t u : Token} (us : List Token) (joined : joins t u = true) :
      JoinStep (t :: u :: us) (join t u :: us)
  | inside (k : TokenKind) (s : Span) {cs ds : List Token} (us : List Token)
      (step : JoinStep cs ds) : JoinStep (node k s cs :: us) (node k s ds :: us)
  | later (u : Token) {us vs : List Token} (step : JoinStep us vs) : JoinStep (u :: us) (u :: vs)

/-- Some joins, one after the other. -/
abbrev Joins : List Token → List Token → Prop := Relation.ReflTransGen JoinStep

theorem JoinStep.append_left (before : List Token) (h : JoinStep us vs) :
    JoinStep (before ++ us) (before ++ vs) := by
  induction before with
  | nil => exact h
  | cons t before ih => exact ih.later t

theorem JoinStep.append_right (h : JoinStep us vs) (after : List Token) :
    JoinStep (us ++ after) (vs ++ after) := by
  induction h with
  | pair us joined => exact .pair (us ++ after) joined
  | inside k s us step ih => exact .inside k s (us ++ after) step
  | later u step ih => exact ih.later u

theorem Joins.append_left (before : List Token) (h : Joins us vs) :
    Joins (before ++ us) (before ++ vs) :=
  h.lift (before ++ ·) fun _ _ => JoinStep.append_left before

theorem Joins.append {us' vs' : List Token} (h : Joins us vs) (h' : Joins us' vs') :
    Joins (us ++ us') (vs ++ vs') :=
  (h.lift (· ++ us') fun _ _ step => step.append_right us').trans (h'.append_left vs)

/-- A join needs a token, and leaves one. -/
theorem JoinStep.ne_nil (h : JoinStep us vs) : us ≠ [] ∧ vs ≠ [] := by
  cases h <;> exact ⟨List.cons_ne_nil _ _, List.cons_ne_nil _ _⟩

/-! ### The loop makes joins -/

/-- Putting a token after a merged list is a join with the last token there, or nothing. -/
theorem joins_mergeInto (merged : List Token) (u : Token) (us : List Token) :
    Joins (merged.reverse ++ u :: us) ((mergeInto merged u).reverse ++ us) := by
  cases merged with
  | nil => exact .refl
  | cons t before =>
    by_cases h : joins t u = true
    · rw [mergeInto_of_joins before h]
      simp only [List.reverse_cons, List.append_assoc, List.singleton_append]
      exact .single ((JoinStep.pair us h).append_left before.reverse)
    · rw [mergeInto_of_not_joins before h]
      simp only [List.reverse_cons, List.append_assoc, List.singleton_append]
      exact .refl

mutual
theorem joins_mergeChildren : ∀ (u : Token) (us : List Token),
    Joins (u :: us) (mergeChildren u :: us)
  | node k s cs, us =>
    (joins_mergeFrom [] cs).lift (node k s · :: us) fun _ _ => JoinStep.inside k s us

theorem joins_mergeFrom : ∀ merged us : List Token,
    Joins (merged.reverse ++ us) (mergeFrom merged us)
  | merged, [] => by
    rw [mergeFrom, List.append_nil]
  | merged, u :: us => by
    have hchildren : Joins (merged.reverse ++ u :: us) (merged.reverse ++ mergeChildren u :: us) :=
      (joins_mergeChildren u us).append_left merged.reverse
    have hlast := joins_mergeInto merged (mergeChildren u) us
    rw [mergeFrom]
    exact (hchildren.trans hlast).trans (joins_mergeFrom (mergeInto merged (mergeChildren u)) us)
end

/-- **Merging makes joins and nothing else.** -/
theorem joins_mergeAdjacent (us : List Token) : Joins us (mergeAdjacent us) :=
  joins_mergeFrom [] us

/-- **What every join keeps is kept by merging.** -/
theorem mergeAdjacent_induction {P : List Token → Prop}
    (step : ∀ {us vs}, JoinStep us vs → P us → P vs) (h : P us) : P (mergeAdjacent us) := by
  have hjoins := joins_mergeAdjacent us
  generalize mergeAdjacent us = merged at hjoins
  induction hjoins with
  | refl => exact h
  | tail _ hlast ih => exact step hlast ih

end Polylex.Token
