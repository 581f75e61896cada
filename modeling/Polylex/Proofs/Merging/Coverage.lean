import Polylex.Proofs.Merging.Joining
import Polylex.Proofs.Tiling

/-!
# Merging and the coverage check

The coverage check goes through a forest from the left, every token before those after it, and
reports the first thing that is wrong with the offsets it meets. Joining two neighbours takes
two tokens away and puts another one in their place, but the check cannot tell: the first one
starts where they start, the second one starts where the check has come to, and behind both it
stands where they end. Neither has children to look into.

This needs that both tokens have something between their start and their end. An empty token is
reported as such, and joined with a neighbour it is gone. So the checks of a forest and of the
forest merged agree if no token is empty, at any level, and then they agree in the violation
they find and in its offsets (`Polylex.Token.checkCoverage_mergeAdjacent`).

The offsets of a span are two numbers, and nothing keeps the first from being the greater one. A
forest in which this does not occur is *ordered* (`Polylex.Token.Ordered`), as all forests of
tokens that stand in a text are.
-/

namespace Polylex

namespace Token

variable {u : Token} {us vs : List Token}

/-! ### The spans of a forest -/

/-- No span in a forest ends in front of its start. -/
def Ordered (us : List Token) : Prop := ∀ u, Occurs u us → u.span.start ≤ u.span.stop

/-- No token in a forest is empty, whatever its level. -/
def NoneEmpty (us : List Token) : Prop := ∀ u, Occurs u us → u.span.isEmpty = false

/-- What holds of all tokens of a forest holds of the first one, of all tokens inside it, and of
all tokens behind it. -/
theorem forall_occurs_cons {P : Token → Prop} :
    (∀ v, Occurs v (u :: us) → P v) ↔
      P u ∧ (∀ v, Occurs v u.children → P v) ∧ ∀ v, Occurs v us → P v := by
  constructor
  · intro h
    exact ⟨h u (.head us), fun v hv => h v (.child hv), fun v hv => h v (.tail hv)⟩
  · rintro ⟨hu, hchildren, hus⟩ v hv
    cases hv with
    | head => exact hu
    | child hv => exact hchildren v hv
    | tail hv => exact hus v hv

theorem not_occurs_nil : ¬Occurs u [] := nofun

/-- **A property of spans that touching spans pass on to their cover** is kept by every join. -/
theorem JoinStep.forall_span {Q : Span → Prop}
    (hcover : ∀ s r : Span, s.stop = r.start → Q s → Q r → Q (s.cover r)) (h : JoinStep us vs)
    (hus : ∀ u, Occurs u us → Q u.span) : ∀ v, Occurs v vs → Q v.span := by
  induction h with
  | pair us joined =>
    obtain ⟨-, -, -, htouch⟩ := joins_iff.mp joined
    obtain ⟨ht, -, hrest⟩ := forall_occurs_cons.mp hus
    obtain ⟨hu, -, hus⟩ := forall_occurs_cons.mp hrest
    exact forall_occurs_cons.mpr
      ⟨hcover _ _ htouch ht hu, fun v hv => absurd hv not_occurs_nil, hus⟩
  | inside k s us step ih =>
    obtain ⟨hs, hcs, hus⟩ := forall_occurs_cons.mp hus
    exact forall_occurs_cons.mpr ⟨hs, ih hcs, hus⟩
  | later u step ih =>
    obtain ⟨hu, hchildren, hus⟩ := forall_occurs_cons.mp hus
    exact forall_occurs_cons.mpr ⟨hu, hchildren, ih hus⟩

theorem JoinStep.ordered (h : JoinStep us vs) (hus : Ordered us) : Ordered vs := by
  refine h.forall_span (Q := fun s => s.start ≤ s.stop) ?_ hus
  intro s r htouch hs hr
  show min s.start r.start ≤ max s.stop r.stop
  omega

theorem ordered_mergeAdjacent (h : Ordered us) : Ordered (mergeAdjacent us) :=
  mergeAdjacent_induction JoinStep.ordered h

theorem ordered_append (hus : Ordered us) (hvs : Ordered vs) : Ordered (us ++ vs) := by
  induction us with
  | nil => exact hvs
  | cons u us ih =>
    obtain ⟨hu, hchildren, hrest⟩ := forall_occurs_cons.mp hus
    exact forall_occurs_cons.mpr ⟨hu, hchildren, ih hrest⟩

/-! ### Forests that are accepted -/

theorem checkChildren_eq (u : Token) :
    checkChildren u =
      if u.children.isEmpty then .ok () else checkFrom u.span.start u.span.stop u.children := by
  cases u
  rw [checkChildren]
  rfl

theorem checkFrom_cons_eq_ok_iff {expected stop : Nat} (hu : u.span.start ≤ u.span.stop) :
    checkFrom expected stop (u :: us) = .ok () ↔
      u.span.start = expected ∧ u.span.start < u.span.stop ∧ checkChildren u = .ok () ∧
        checkFrom u.span.stop stop us = .ok () := by
  rw [checkFrom]
  constructor
  · intro h
    split at h
    · cases h
    split at h
    · cases h
    split at h
    · cases h
    next hempty =>
    have hne : u.span.start ≠ u.span.stop := by simpa [Span.isEmpty] using hempty
    cases hchildren : checkChildren u with
    | error e =>
      rw [hchildren] at h
      cases h
    | ok =>
      rw [hchildren] at h
      exact ⟨by omega, by omega, rfl, h⟩
  · rintro ⟨rfl, hlt, hchildren, hus⟩
    have hempty : u.span.isEmpty = false := beq_false_of_ne (Nat.ne_of_lt hlt)
    simp only [Nat.lt_irrefl, if_false, hempty, Bool.false_eq_true, hchildren, hus]

theorem checkChildren_eq_ok_iff :
    checkChildren u = .ok () ↔
      u.children = [] ∨ checkFrom u.span.start u.span.stop u.children = .ok () := by
  rw [checkChildren_eq]
  split
  next h => exact iff_of_true rfl (Or.inl (List.isEmpty_iff.mp h))
  next h => rw [or_iff_right (mt List.isEmpty_iff.mpr h)]

/-- A forest that covers a span up to its end does not begin behind it. -/
theorem le_of_checkFrom {expected stop : Nat} (hordered : Ordered us)
    (h : checkFrom expected stop us = .ok ()) : expected ≤ stop := by
  induction us generalizing expected with
  | nil =>
    rw [checkFrom] at h
    split at h
    next heq => exact Nat.le_of_eq heq
    next => cases h
  | cons u us ih =>
    obtain ⟨hu, -, hus⟩ := forall_occurs_cons.mp hordered
    obtain ⟨rfl, hlt, -, hrest⟩ := (checkFrom_cons_eq_ok_iff hu).mp h
    exact Nat.le_trans hu (ih hus hrest)

/-- In a forest that covers a span no token is empty. -/
theorem start_lt_stop_of_checkFrom {expected stop : Nat} (hordered : Ordered us)
    (h : checkFrom expected stop us = .ok ()) (hocc : Occurs u us) : u.span.start < u.span.stop := by
  induction hocc generalizing expected stop with
  | head us => exact ((checkFrom_cons_eq_ok_iff (hordered u (.head us))).mp h).2.1
  | @child v us below ih =>
    obtain ⟨hv, hchildren, -⟩ := forall_occurs_cons.mp hordered
    obtain ⟨-, -, hinner, -⟩ := (checkFrom_cons_eq_ok_iff hv).mp h
    rcases checkChildren_eq_ok_iff.mp hinner with hnil | hinner
    · rw [hnil] at below
      exact absurd below not_occurs_nil
    · exact ih hchildren hinner
  | @tail v us behind ih =>
    obtain ⟨hv, -, hus⟩ := forall_occurs_cons.mp hordered
    exact ih hus ((checkFrom_cons_eq_ok_iff hv).mp h).2.2.2

/-! ### The check cannot tell -/

/-- **A join is not seen by the check**, if no token is empty. -/
theorem JoinStep.checkFrom_eq (h : JoinStep us vs)
    (hus : ∀ u, Occurs u us → u.span.start < u.span.stop) (expected stop : Nat) :
    checkFrom expected stop vs = checkFrom expected stop us := by
  induction h generalizing expected stop with
  | @pair t u us joined =>
    obtain ⟨-, ht, hu, htouch⟩ := joins_iff.mp joined
    obtain ⟨htlt, -, hrest⟩ := forall_occurs_cons.mp hus
    obtain ⟨hult, -, -⟩ := forall_occurs_cons.mp hrest
    -- Both tokens are passed over without a look inside, and so is the one they become.
    have hpass (v : Token) (vs : List Token) (hv : v.children = [])
        (hlt : v.span.start < v.span.stop) (expected : Nat) :
        checkFrom expected stop (v :: vs) =
          if expected < v.span.start then .error (.gap expected v.span.start)
          else if v.span.start < expected then .error (.overlap expected v.span.start)
          else checkFrom v.span.stop stop vs := by
      have hne : v.span.isEmpty = false := beq_false_of_ne (Nat.ne_of_lt hlt)
      rw [checkFrom, hne, checkChildren_eq, hv]
      rfl
    have hstart : (join t u).span.start = t.span.start :=
      Nat.min_eq_left (by omega)
    have hstop : (join t u).span.stop = u.span.stop :=
      Nat.max_eq_right (by omega)
    rw [hpass t (u :: us) ht htlt, hpass u us hu hult,
      hpass (join t u) us rfl (by rw [hstart, hstop]; omega), hstart, hstop, htouch]
    simp only [Nat.lt_irrefl, if_false]
  | @inside k s cs ds us step ih =>
    obtain ⟨-, hcs, -⟩ := forall_occurs_cons.mp hus
    obtain ⟨hcne, hdne⟩ := step.ne_nil
    have hchildren : checkChildren (node k s ds) = checkChildren (node k s cs) := by
      rw [checkChildren_eq, checkChildren_eq]
      simp only [children_node, span_node, List.isEmpty_iff, hcne, hdne, if_false]
      exact ih hcs s.start s.stop
    rw [checkFrom, checkFrom, hchildren]
    rfl
  | @later u us vs step ih =>
    obtain ⟨-, -, hus⟩ := forall_occurs_cons.mp hus
    rw [checkFrom, checkFrom, ih hus]

theorem checkFrom_mergeAdjacent (hus : ∀ u, Occurs u us → u.span.start < u.span.stop)
    (expected stop : Nat) :
    checkFrom expected stop (mergeAdjacent us) = checkFrom expected stop us := by
  suffices h : (∀ v, Occurs v (mergeAdjacent us) → v.span.start < v.span.stop) ∧
      checkFrom expected stop (mergeAdjacent us) = checkFrom expected stop us from h.2
  refine mergeAdjacent_induction (P := fun vs =>
    (∀ v, Occurs v vs → v.span.start < v.span.stop) ∧
      checkFrom expected stop vs = checkFrom expected stop us) ?_ ⟨hus, rfl⟩
  rintro vs vs' step ⟨hvs, hcheck⟩
  refine ⟨step.forall_span (Q := fun s => s.start < s.stop) ?_ hvs,
    (step.checkFrom_eq hvs expected stop).trans hcheck⟩
  intro s r htouch hs hr
  show min s.start r.start < max s.stop r.stop
  omega

theorem start_lt_stop_of_occurs (hordered : Ordered us) (hempty : NoneEmpty us)
    (h : Occurs u us) : u.span.start < u.span.stop :=
  Nat.lt_of_le_of_ne (hordered u h) (by simpa [Span.isEmpty] using hempty u h)

/-- **Merging neither hides nor causes a violation.** A forest in which no token is empty is
checked with the same result whether it is merged or not, against every span: it is accepted,
or the same violation is found at the same offsets. So there is a stream of its tokens, merged,
exactly when there is one of the tokens as they are, and then it is that one with its tokens
merged. -/
theorem checkCoverage_mergeAdjacent (forest : List Token) (hordered : Ordered forest)
    (hempty : NoneEmpty forest) :
    (∀ span, checkCoverage (mergeAdjacent forest) span = checkCoverage forest span) ∧
    (∀ width, (∃ s, TokenStream.ofTokens forest width true = .ok s) ↔
      ∃ s, TokenStream.ofTokens forest width false = .ok s) ∧
    ∀ width, TokenStream.ofTokens forest width true =
      (TokenStream.ofTokens forest width false).map fun s => ⟨mergeAdjacent s.tokens, s.width⟩ := by
  have hcheck (span : Span) :
      checkCoverage (mergeAdjacent forest) span = checkCoverage forest span :=
    checkFrom_mergeAdjacent (fun u => start_lt_stop_of_occurs hordered hempty) span.start span.stop
  have hstream (width : Nat) : TokenStream.ofTokens forest width true =
      (TokenStream.ofTokens forest width false).map fun s =>
        ⟨mergeAdjacent s.tokens, s.width⟩ := by
    rw [TokenStream.ofTokens, TokenStream.ofTokens]
    simp only [if_true, Bool.false_eq_true, if_false]
    rw [hcheck]
    cases checkCoverage forest ⟨0, width⟩ <;> rfl
  refine ⟨hcheck, fun width => ?_, hstream⟩
  rw [hstream width]
  cases TokenStream.ofTokens forest width false with
  | error e => simp [Except.map]
  | ok s => exact iff_of_true ⟨_, rfl⟩ ⟨_, rfl⟩

/-- The case of a literal whose pieces end in front of its end, behind two characters. Both pairs
of neighbours are joined, and the violation is the same. -/
theorem checkCoverage_mergeAdjacent_incomplete :
    let forest := [leaf .text ⟨0, 1⟩, leaf .text ⟨1, 2⟩,
      node .string ⟨2, 5⟩ [leaf .string ⟨2, 3⟩, leaf .string ⟨3, 4⟩]]
    Ordered forest ∧ NoneEmpty forest ∧ (mergeAdjacent forest).length = 2 ∧
      checkCoverage forest ⟨0, 5⟩ = .error (.incomplete 4 5) ∧
      checkCoverage (mergeAdjacent forest) ⟨0, 5⟩ = .error (.incomplete 4 5) := by
  intro forest
  have hordered : Ordered forest := by
    simp [Ordered, forest, forall_occurs_cons, not_occurs_nil, leaf]
  have hempty : NoneEmpty forest := by
    simp [NoneEmpty, forest, forall_occurs_cons, not_occurs_nil, leaf, Span.isEmpty]
  have hviolated : checkCoverage forest ⟨0, 5⟩ = .error (.incomplete 4 5) := rfl
  obtain ⟨hcheck, -⟩ := checkCoverage_mergeAdjacent forest hordered hempty
  exact ⟨hordered, hempty, rfl, hviolated, (hcheck ⟨0, 5⟩).trans hviolated⟩

end Token

end Polylex
