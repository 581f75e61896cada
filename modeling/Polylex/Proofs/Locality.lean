import Polylex.Proofs.Literal.Shift
import Polylex.Proofs.Offset
import Polylex.Proofs.Run.Session

/-!
# A run sees nothing but its range

What a run over a range of a text returns and reports is what the run over that part of the
text alone returns and reports, moved to the start of the range
(`Polylex.Session.runRange_local`). So a lexer that is started in the middle of a
document neither looks back nor beyond the end of its range, whatever the rules are.

The proof follows a run: the actions on the regions, the children of a literal, the loop
over the tokens (`Polylex.Run.forestFrom_shift`), and the levels of embedding
(`Polylex.Run.forest_shift`). No property of the grammars is needed; a root that is not in
the set, and even a rule that could not be used, are moved all the same.
-/

namespace Polylex

open Token

variable {k : Nat}

namespace Run

variable {grammars : GrammarSet} {budget offset : Nat} {embedded : Embedded}

/-! ### Regions -/

theorem lookup_shift (id : String) :
    lookup grammars id = (lookup grammars id).shift k fun g => g := by
  rw [lookup]
  split <;> rfl

theorem enter_shift (stack : RegionStack) (id : String) (opener : Span) :
    enter grammars (stack.shift k) id (opener.shift k) =
      (enter grammars stack id opener).shift k (RegionStack.shift k) := by
  rw [enter, enter]
  refine Traced.shift_bind (lookup_shift id) fun g => ?_
  rw [Span.stop_shift, RegionStack.push_shift]
  cases stack.push g opener.stop opener with
  | ok next => rfl
  | error e =>
    cases e with
    | unbalanced depth => rfl
    | «recursive» id =>
      dsimp only [Except.map]
      rw [RegionStack.current_shift]
      rfl
    | depthLimit limit => rfl

theorem leave_shift (stack : RegionStack) (offset : Nat) :
    leave (stack.shift k) (offset + k) = (leave stack offset).shift k := by
  obtain ⟨root, nested, limit⟩ := stack
  cases nested <;> rfl

theorem act_shift (stack : RegionStack) (token : Span) (action : Option RegionAction) :
    act grammars (stack.shift k) (token.shift k) action =
      (act grammars stack token action).shift k (RegionStack.shift k) := by
  cases action with
  | none => rfl
  | some action =>
    cases action with
    | enter id => exact enter_shift stack id token
    | exit => exact congrArg pure (leave_shift stack token.stop)
    | switch id =>
      rw [act, act, Span.stop_shift, leave_shift]
      exact enter_shift (leave stack token.stop) id token

theorem unclosedDiagnostic_shift (stop : Nat) (region : Region) :
    unclosedDiagnostic (stop + k) (region.shift k) = (unclosedDiagnostic stop region).shift k := by
  rw [unclosedDiagnostic, unclosedDiagnostic, Diagnostic.shift_withRelated]
  rfl

theorem closeOut_shift (stack : RegionStack) (stop : Nat) :
    closeOut (stack.shift k) (stop + k) = (closeOut stack stop).shift k id := by
  rw [closeOut, closeOut, RegionStack.closeAll_shift, Traced.shift_report, List.map_map,
    List.map_map]
  exact congrArg Traced.report (List.map_congr_left fun region _ =>
    unclosedDiagnostic_shift stop region)

/-! ### Literals -/

/-- A tokenizer of expressions that does not see where the expression is. -/
def Embedded.Local (embedded : Embedded) : Prop :=
  ∀ k g offset t, embedded g (offset + k) t = (embedded g offset t).shift k (shiftForest k)

theorem piece_shift (kind : TokenKind) (start stop : Nat) :
    piece kind (start + k) (stop + k) = shiftForest k (piece kind start stop) := by
  rw [piece, piece]
  by_cases h : start < stop
  · rw [if_pos h, if_pos (Nat.add_lt_add_right h k)]
    rfl
  · rw [if_neg h, if_neg (fun h' => h (Nat.lt_of_add_lt_add_right h'))]
    rfl

theorem expressionTokens_shift (he : embedded.Local) (host : Grammar) (z : Zone) :
    expressionTokens grammars embedded host (z.shift k) =
      (expressionTokens grammars embedded host z).shift k (shiftForest k) := by
  rw [expressionTokens, expressionTokens, Zone.body_shift, Zone.grammar_shift,
    Zone.bodyStart_shift]
  split
  · rfl
  · dsimp only
    split
    · exact Traced.shift_bind (lookup_shift _) fun g => he k g z.bodyStart z.body
    · exact Traced.shift_bind (h := fun g : Grammar => g) rfl fun g => he k g z.bodyStart z.body

theorem childrenFrom_shift (he : embedded.Local) (host : Grammar) (kind : TokenKind)
    (stop offset : Nat) (zones : List Zone) :
    childrenFrom grammars embedded host kind (stop + k) (offset + k) (zones.map (·.shift k)) =
      (childrenFrom grammars embedded host kind stop offset zones).shift k (shiftForest k) := by
  induction zones generalizing offset with
  | nil =>
    rw [List.map_nil, childrenFrom, childrenFrom, piece_shift]
    rfl
  | cons z zones ih =>
    rw [List.map_cons, childrenFrom, childrenFrom]
    refine Traced.shift_bind (expressionTokens_shift he host z) fun inner => ?_
    rw [Zone.stop_shift]
    refine Traced.shift_bind (ih z.stop) fun after => ?_
    rw [Zone.start_shift, Zone.bodyStop_shift, Zone.openerSpan_shift, piece_shift, piece_shift,
      Traced.shift_pure]
    simp only [shiftForest_append, shiftForest_cons, shift_leaf]

theorem splice_shift (he : embedded.Local) (host : Grammar) (raw : RawToken) :
    splice grammars embedded host (raw.shift k) =
      (splice grammars embedded host raw).shift k (Token.shift k) := by
  have hempty : (raw.shift k).zones.isEmpty = raw.zones.isEmpty := List.isEmpty_map
  rw [splice, splice, hempty]
  split
  · rfl
  · exact Traced.shift_bind (childrenFrom_shift he host raw.kind raw.span.stop raw.span.start
      raw.zones) fun children => rfl

/-! ### Texts -/

/-- **The loop over a text moves along with the text.** -/
theorem forestFrom_shift (he : embedded.Local) (cancelled : Bool) (skip : Nat)
    (stack : RegionStack) (offset : Nat) (t : Text) :
    forestFrom grammars budget embedded cancelled skip (stack.shift k) (offset + k) t =
      (forestFrom grammars budget embedded cancelled skip stack offset t).shift k
        (shiftForest k) := by
  induction t generalizing skip stack offset with
  | nil =>
    have hend : (do closeOut (stack.shift k) (offset + k); pure ([] : List Token)) =
        (do closeOut stack offset; pure ([] : List Token)).shift k (shiftForest k) :=
      Traced.shift_bind (closeOut_shift stack offset) fun _ => rfl
    cases skip <;> exact hend
  | cons c t ih =>
    cases skip with
    | succ skip => rw [forestFrom, forestFrom, Nat.add_right_comm, ih]
    | zero =>
      rw [forestFrom, forestFrom, RegionStack.current_shift, Grammar.firstMatch_shift]
      dsimp only
      rw [RawToken.ofMatch_shift]
      generalize stack.current.firstMatch budget offset (c :: t) = found
      split
      · rfl
      -- The loop is a sequence of four computations, and each of them is moved.
      · refine Traced.shift_bind (Traced.shift_report found.diagnostics).symm fun _ => ?_
        refine Traced.shift_bind (splice_shift he stack.current _) fun token => ?_
        refine Traced.shift_bind (act_shift stack _ _) fun next => ?_
        rw [Nat.add_right_comm offset k]
        exact Traced.shift_bind (ih (found.length - 1) next _) fun tokens => rfl

/-- **A run moves along with its text**, for every budget. -/
theorem forest_shift (limit : Nat) (cancelled : Bool) (root : Grammar) (offset : Nat) (t : Text) :
    forest grammars limit budget cancelled root (offset + k) t =
      (forest grammars limit budget cancelled root offset t).shift k (shiftForest k) := by
  induction budget generalizing cancelled root offset t k with
  | zero =>
    rw [forest, forest, RegionStack.start_shift]
    exact forestFrom_shift (fun _ _ _ _ => rfl) cancelled 0 _ offset t
  | succ budget ih =>
    rw [forest, forest, RegionStack.start_shift]
    exact forestFrom_shift (fun _ g offset t => ih false g offset t) cancelled 0 _ offset t

end Run

namespace Session

/-- The session before it has reported anything. -/
def fresh (s : Session) : Session := { s with diagnostics := [] }

/-- What a run gives that was made elsewhere: its tokens or its error, and its reports added
to those of the session, with every offset increased by some bytes. -/
def moved (s : Session) (k : Nat) (run : Except TokenizeError (List Token) × Session) :
    Except TokenizeError (List Token) × Session :=
  (run.1.map (shiftForest k),
    { s with diagnostics := s.diagnostics ++ run.2.diagnostics.map (·.shift k) })

variable (s : Session) (root : Grammar) (depth : Nat)

/-- The trace over a span is the trace over the slice, moved to the start of the span. -/
theorem trace_eq_shift (t : Text) (span : Span) :
    s.trace t root span depth =
      (s.trace (t.slice span) root ⟨0, span.stop - span.start⟩ depth).shift span.start
        (shiftForest span.start) := by
  rw [trace, trace, Text.slice_slice, ← Run.forest_shift, Nat.zero_add]

/-- **Locality.** A run over a span of a text returns the tokens or the error of the run over
the slice alone, and adds its reports, with every offset increased by the start of the span.
So whatever stands before a piece of a text and after it, the run over the piece is that of
the piece alone. -/
theorem runRange_local :
    (∀ t span, s.runRange t root span depth =
      s.moved span.start
        (s.fresh.runRange (t.slice span) root ⟨0, span.stop - span.start⟩ depth)) ∧
    ∀ before piece after : Text,
      s.runRange (before ++ piece ++ after) root
          ⟨before.width, before.width + piece.width⟩ depth =
        s.moved before.width (s.fresh.runRange piece root ⟨0, piece.width⟩ depth) := by
  have hspan (t : Text) (span : Span) : s.runRange t root span depth =
      s.moved span.start
        (s.fresh.runRange (t.slice span) root ⟨0, span.stop - span.start⟩ depth) := by
    rw [runRange_eq, runRange_eq, trace_eq_shift]
    rfl
  refine ⟨hspan, fun before piece after => ?_⟩
  rw [hspan, Text.slice_append, Nat.add_sub_cancel_left]

end Session

end Polylex
