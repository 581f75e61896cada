import Polylex.Proofs.Run.Forest

/-!
# Moving offsets

Everything a run produces carries offsets: spans, zones, tokens, diagnostics and regions.
`shift` moves all of them by the same number of bytes. It changes nothing else, so each
operation that only passes offsets along commutes with it; the equations of this file say
so for the operations on data, and they are what `simp` needs to push a shift to the places
where offsets are made.

For a computation, `Polylex.Traced.shift` moves what is reported and applies a function to
the value. Sequencing two computations then is a matter of each of them
(`Polylex.Traced.shift_bind`).
-/

namespace Polylex

variable (k : Nat)

/-! ### Spans, zones and diagnostics -/

/-- The span, moved by some bytes. -/
def Span.shift (s : Span) : Span := ⟨s.start + k, s.stop + k⟩

@[simp] theorem Span.start_shift (s : Span) : (s.shift k).start = s.start + k := rfl

@[simp] theorem Span.stop_shift (s : Span) : (s.shift k).stop = s.stop + k := rfl

/-- A span of a given width, made at the moved offset. -/
theorem Span.mk_shift (offset width : Nat) :
    (⟨offset + k, offset + k + width⟩ : Span) = Span.shift k ⟨offset, offset + width⟩ := by
  rw [Span.shift, Nat.add_right_comm]

/-- The zone, moved by some bytes. -/
def Zone.shift (z : Zone) : Zone := { z with start := z.start + k }

namespace Zone

@[simp] theorem start_shift (z : Zone) : (z.shift k).start = z.start + k := rfl

@[simp] theorem body_shift (z : Zone) : (z.shift k).body = z.body := rfl

@[simp] theorem grammar_shift (z : Zone) : (z.shift k).grammar = z.grammar := rfl

@[simp] theorem length_shift (z : Zone) : (z.shift k).length = z.length := rfl

@[simp] theorem bodyStart_shift (z : Zone) : (z.shift k).bodyStart = z.bodyStart + k :=
  Nat.add_right_comm _ _ _

@[simp] theorem bodyStop_shift (z : Zone) : (z.shift k).bodyStop = z.bodyStop + k := by
  rw [bodyStop, bodyStart_shift]
  exact Nat.add_right_comm _ _ _

@[simp] theorem stop_shift (z : Zone) : (z.shift k).stop = z.stop + k := by
  rw [stop, bodyStop_shift]
  exact Nat.add_right_comm _ _ _

@[simp] theorem openerSpan_shift (z : Zone) : (z.shift k).openerSpan = z.openerSpan.shift k := by
  rw [openerSpan, bodyStart_shift]
  rfl

end Zone

/-- The related place, moved by some bytes. -/
def Related.shift (r : Related) : Related := { r with span := r.span.shift k }

/-- The diagnostic with all places moved by some bytes. -/
def Diagnostic.shift (d : Diagnostic) : Diagnostic :=
  { d with span := d.span.shift k, related := d.related.map (·.shift k) }

@[simp] theorem Diagnostic.shift_withRelated (d : Diagnostic) (message : String) (span : Span) :
    (d.withRelated message span).shift k = (d.shift k).withRelated message (span.shift k) := by
  simp [withRelated, shift, Related.shift]

/-! ### Tokens -/

namespace Token

mutual
/-- The token and everything inside it, moved by some bytes. -/
def shift : Token → Token
  | node kind span children => node kind (span.shift k) (shiftForest children)

/-- The forest, moved by some bytes. -/
def shiftForest : List Token → List Token
  | [] => []
  | u :: us => shift u :: shiftForest us
end

theorem shiftForest_eq_map (us : List Token) : shiftForest k us = us.map (shift k) := by
  induction us with
  | nil => rfl
  | cons u us ih => rw [shiftForest, ih, List.map_cons]

@[simp] theorem shiftForest_cons (u : Token) (us : List Token) :
    shiftForest k (u :: us) = shift k u :: shiftForest k us := rfl

@[simp] theorem shiftForest_append (us vs : List Token) :
    shiftForest k (us ++ vs) = shiftForest k us ++ shiftForest k vs := by
  simp only [shiftForest_eq_map, List.map_append]

@[simp] theorem shift_leaf (kind : TokenKind) (span : Span) :
    (leaf kind span).shift k = leaf kind (span.shift k) := rfl

end Token

/-! ### Regions -/

/-- The region, moved by some bytes. -/
def Region.shift (r : Region) : Region :=
  { r with start := r.start + k, stop := r.stop.map (· + k), opener := r.opener.shift k }

namespace RegionStack

/-- The open regions, moved by some bytes. -/
def shift (s : RegionStack) : RegionStack :=
  { s with root := s.root.shift k, nested := s.nested.map (·.shift k) }

theorem start_shift (g : Grammar) (offset limit : Nat) :
    start g (offset + k) limit = (start g offset limit).shift k := rfl

theorem top_shift (s : RegionStack) : (s.shift k).top = s.top.shift k := by
  obtain ⟨root, nested, limit⟩ := s
  cases nested <;> rfl

@[simp] theorem current_shift (s : RegionStack) : (s.shift k).current = s.current := by
  rw [current, top_shift]
  rfl

@[simp] theorem depth_shift (s : RegionStack) : (s.shift k).depth = s.depth := by
  simp [depth, shift]

@[simp] theorem contains_shift (s : RegionStack) (id : String) :
    (s.shift k).contains id = s.contains id := by
  simp only [contains, shift, List.any_map]
  rfl

/-- Whether a region is entered does not depend on where it is. -/
theorem push_shift (s : RegionStack) (g : Grammar) (start : Nat) (opener : Span) :
    (s.shift k).push g (start + k) (opener.shift k) =
      (s.push g start opener).map (RegionStack.shift k) := by
  rw [push, push, contains_shift, depth_shift]
  split
  · rfl
  · split
    · rw [if_pos (by assumption)]
      rfl
    · rw [if_neg (by assumption)]
      rfl

theorem closeAll_shift (s : RegionStack) (offset : Nat) :
    ((s.shift k).closeAll (offset + k)).1 = (s.closeAll offset).1.map (Region.shift k) := by
  simp only [closeAll, shift, List.map_map]
  rfl

end RegionStack

/-! ### Computations -/

namespace Traced

variable {α β γ δ : Type}

/-- The computation with its reports moved by some bytes and its value mapped. -/
def shift (f : α → β) (x : Traced α) : Traced β :=
  ⟨x.diagnostics.map (·.shift k), x.outcome.map f⟩

variable {k}

theorem shift_pure (f : α → β) (a : α) : (pure a : Traced α).shift k f = pure (f a) := rfl

theorem shift_report (ds : List Diagnostic) :
    (report ds).shift k id = report (ds.map (·.shift k)) := rfl

/-- **Two computations in sequence are moved by moving both.** -/
theorem shift_bind {x : Traced α} {x' : Traced β} {f : α → Traced γ} {f' : β → Traced δ}
    {h : α → β} {g : γ → δ} (hx : x' = x.shift k h) (hf : ∀ a, f' (h a) = (f a).shift k g) :
    x' >>= f' = (x >>= f).shift k g := by
  subst hx
  obtain ⟨ds, outcome⟩ := x
  cases outcome with
  -- After an error nothing else is run.
  | error e => rfl
  | ok a =>
    have hvalue : (⟨ds, .ok a⟩ : Traced α).shift k h = ⟨ds.map (·.shift k), .ok (h a)⟩ := rfl
    rw [hvalue, bind_ok, bind_ok, hf]
    simp [shift]

end Traced

end Polylex
