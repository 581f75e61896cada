import Polylex.Proofs.Tiling
import Polylex.Proofs.Literal.Zones
import Polylex.Proofs.Run.Forest

/-!
# The children of a literal

A literal with zones becomes a token whose children are pieces of the literal, delimiters,
and the tokens of the expressions. When every expression has tokens, the children are these
tokens laid between the pieces (`Polylex.Run.interleave`) and the reports are those of the
expressions one after the other (`Polylex.Run.splice_eq`). The layout tiles the literal if
the tokens of every expression tile the expression (`Polylex.Run.tiles_interleave`), and
the tokens of an expression are found again among the children as the ones inside its span
(`Polylex.Run.filter_interleave`).
-/

namespace Polylex

/-- The value of a computation, or a default if it fails. -/
def Traced.get {α : Type} [Inhabited α] (x : Traced α) : α :=
  match x.outcome with
  | .ok a => a
  | .error _ => default

theorem Traced.get_eq_of_outcome {α : Type} [Inhabited α] {x : Traced α} {a : α}
    (h : x.outcome = .ok a) : x.get = a := by
  rw [get, h]

namespace Run

open Token Literal

variable {grammars : GrammarSet} {embedded : Embedded} {host : Grammar} {kind : TokenKind}
variable {offset : Nat} {t : Text} {zs : List Zone}

/-! ### Laying out the children -/

/-- The children of a literal from an offset on, given the tokens of every zone. -/
def interleave (kind : TokenKind) (stop : Nat) (inner : Zone → List Token) :
    (offset : Nat) → List Zone → List Token
  | offset, [] => piece kind offset stop
  | offset, z :: zs =>
    piece kind offset z.start ++ .leaf .interpolationMarker z.openerSpan :: inner z ++
      piece .interpolationMarker z.bodyStop z.stop ++ interleave kind stop inner z.stop zs

/-- **The children of a literal are the tokens of its expressions between its pieces**, if
every expression has tokens. -/
theorem childrenFrom_eq {stop : Nat} {inner : Zone → List Token}
    (h : ∀ z ∈ zs, (expressionTokens grammars embedded host z).outcome = .ok (inner z)) :
    childrenFrom grammars embedded host kind stop offset zs =
      ⟨zs.flatMap fun z => (expressionTokens grammars embedded host z).diagnostics,
        .ok (interleave kind stop inner offset zs)⟩ := by
  induction zs generalizing offset with
  | nil => rfl
  | cons z zs ih =>
    obtain ⟨hz, hzs⟩ := List.forall_mem_cons.mp h
    obtain ⟨ds, out⟩ : ∃ ds, expressionTokens grammars embedded host z = ⟨ds, .ok (inner z)⟩ :=
      ⟨_, by rw [← hz]⟩
    rw [childrenFrom, out, ih hzs, List.flatMap_cons, out]
    simp only [Traced.bind_ok, Traced.pure_eq, List.append_nil]
    rfl

/-- **The tree of a token**: a leaf if it has no zones, and otherwise a token over the
layout of its children. -/
theorem splice_eq {raw : RawToken} {inner : Zone → List Token}
    (h : ∀ z ∈ raw.zones, (expressionTokens grammars embedded host z).outcome = .ok (inner z)) :
    splice grammars embedded host raw =
      ⟨raw.zones.flatMap fun z => (expressionTokens grammars embedded host z).diagnostics,
        .ok (.node raw.kind raw.span
          (if raw.zones.isEmpty then []
            else interleave raw.kind raw.span.stop inner raw.span.start raw.zones))⟩ := by
  rw [splice]
  split
  next hempty =>
    rw [List.isEmpty_iff.mp hempty]
    rfl
  next =>
    rw [childrenFrom_eq h]
    simp only [Traced.bind_ok, Traced.pure_eq, List.append_nil]

/-! ### The layout tiles the literal -/

theorem tiles_piece (kind : TokenKind) (offset : Nat) (t : Text) :
    Tiles offset t (piece kind offset (offset + t.width)) := by
  rw [piece]
  split
  next hlt =>
    have hne : t ≠ [] := by
      rintro rfl
      exact Nat.lt_irrefl _ hlt
    exact (over_leaf hne).tiles
  next hge =>
    have hzero : t.width = 0 := by omega
    exact tiles_nil.mpr (Text.width_eq_zero.mp hzero)

/-- What the layout puts in front of the expression of the first zone and behind it tiles
the text there. -/
theorem tiles_around (kind : TokenKind) {z : Zone} (hzones : ZonesIn offset t (z :: zs)) :
    ∃ before after, t = before ++ z.text ++ after ∧ z.start = offset + before.width ∧
      Tiles offset before (piece kind offset z.start) ∧
      Tiles z.start z.opener [.leaf .interpolationMarker z.openerSpan] ∧
      Tiles z.bodyStop z.closer (piece .interpolationMarker z.bodyStop z.stop) ∧
      ZonesIn z.stop after zs ∧ z.stop + after.width = offset + t.width := by
  obtain ⟨before, after, rfl, hstart, hopener, hafter⟩ := hzones
  refine ⟨before, after, rfl, hstart, ?_, (over_leaf hopener).tiles,
    tiles_piece _ z.bodyStop z.closer, hafter, ?_⟩
  · rw [hstart]
    exact tiles_piece kind offset before
  · rw [← Zone.start_add_width_text, hstart]
    simp [Nat.add_assoc]

/-- **The layout tiles the literal** if the tokens of every expression tile the
expression. -/
theorem tiles_interleave {inner : Zone → List Token} (hzones : ZonesIn offset t zs)
    (hinner : ∀ z ∈ zs, Tiles z.bodyStart z.body (inner z)) :
    Tiles offset t (interleave kind (offset + t.width) inner offset zs) := by
  induction zs generalizing offset t with
  | nil => exact tiles_piece kind offset t
  | cons z zs ih =>
    obtain ⟨before, after, ht, hstart, hbefore, hmark, hclose, hafter, hstop⟩ :=
      tiles_around kind hzones
    obtain ⟨hz, hzs⟩ := List.forall_mem_cons.mp hinner
    have hrest := ih hafter hzs
    rw [hstop] at hrest
    -- Every part begins where the one before it ends.
    have hzone : Tiles z.start z.text (.leaf .interpolationMarker z.openerSpan :: inner z ++
        piece .interpolationMarker z.bodyStop z.stop) := by
      have hbody : z.start + (z.opener ++ z.body).width = z.bodyStop := by
        simp [Zone.bodyStop, Zone.bodyStart, Nat.add_assoc]
      exact (hmark.append hz).append (by rw [hbody]; exact hclose)
    have hzrest : Tiles z.start (z.text ++ after) (.leaf .interpolationMarker z.openerSpan ::
        inner z ++ piece .interpolationMarker z.bodyStop z.stop ++
          interleave kind (offset + t.width) inner z.stop zs) :=
      hzone.append (by rw [Zone.start_add_width_text]; exact hrest)
    have hall := hbefore.append (by rw [← hstart]; exact hzrest)
    rw [← List.append_assoc before, ← ht] at hall
    simpa [interleave] using hall

/-- **The tokens of an expression are the children inside its span.** -/
theorem filter_interleave {inner : Zone → List Token} (hzones : ZonesIn offset t zs)
    (hinner : ∀ z ∈ zs, Tiles z.bodyStart z.body (inner z)) {z : Zone} (hz : z ∈ zs) :
    (interleave kind (offset + t.width) inner offset zs).filter (z.bodySpan.encloses ·.span) =
      inner z := by
  induction zs generalizing offset t with
  | nil => cases hz
  | cons z' zs ih =>
    obtain ⟨before, after, ht, hstart, hbefore, hmark, hclose, hafter, hstop⟩ :=
      tiles_around kind hzones
    obtain ⟨hz', hzs⟩ := List.forall_mem_cons.mp hinner
    have hrest : Tiles z'.stop after (interleave kind (z'.stop + after.width) inner z'.stop zs) :=
      tiles_interleave hafter hzs
    have hbodyStart : z'.bodyStart = z'.start + z'.opener.width := rfl
    have hbodyStop : z'.bodyStop = z'.bodyStart + z'.body.width := rfl
    have hzstop : z'.stop = z'.bodyStop + z'.closer.width := rfl
    have hsplit : interleave kind (offset + t.width) inner offset (z' :: zs) =
        piece kind offset z'.start ++ ([.leaf .interpolationMarker z'.openerSpan] ++ (inner z' ++
          (piece .interpolationMarker z'.bodyStop z'.stop ++
            interleave kind (z'.stop + after.width) inner z'.stop zs))) := by
      rw [hstop]
      simp [interleave]
    rw [hsplit]
    simp only [List.filter_append]
    rcases List.mem_cons.mp hz with rfl | hz
    -- The expression of the first zone: only its own tokens are inside its span.
    · rw [hbefore.filter_before, hmark.filter_before, hz'.filter_inside, hclose.filter_after,
        hrest.filter_after]
      · simp
      all_goals
        dsimp only [Zone.bodySpan]
        omega
    -- An expression of a later zone: all of the first zone is in front of it.
    · obtain ⟨hbound, hlt⟩ := hafter.bounds_of_mem hz
      rw [hbefore.filter_before, hmark.filter_before, hz'.filter_before, hclose.filter_before,
        ih hafter hzs hz]
      · simp
      all_goals
        dsimp only [Zone.bodySpan]
        omega

end Run

end Polylex
