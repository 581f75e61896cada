import Mathlib.Logic.Relation
import Polylex.Proofs.Literal.Loops
import Polylex.Proofs.Run.Replay
import Polylex.Proofs.Run.Session

/-!
# The loops of a run end

A run goes through a range token by token, and calls a run for the expression of every zone of a
token. As with the loops inside literals (`Polylex.Literal.BodyLoop`), the functions that run end
in any case, since they count the characters, while the loop with its jumps needs tokens that read
something. `Polylex.Run.RangeLoop` is the loop at the start of an iteration, and
`Polylex.Run.RangeLoop.finish` goes through it with its jumps, up to a number of iterations and
calls inside each other.

There is one loop here and there are two in a run, which starts a scanner behind each token that
acts and asks it for one token after the other (`Polylex.SessionM.reseat`,
`Polylex.SessionM.drain`). An iteration is what the inner one does with a token; where it ends and
the outer one goes on, nothing but the scanner is new (`Polylex.SessionM.traces_complete`).

In a valid set a run needs no more iterations and calls than there are characters, and what the
loop returns and reports is what the run does (`Polylex.Run.RangeLoop.finish_eq`,
`Polylex.Session.runRange_eq`). The runs of expressions are over ranges inside the range of their
token, with one level less (`Polylex.Run.RangeLoop.Iterates.inside_of_mem_calls`).
-/

namespace Polylex

/-- The expression of a zone is shorter than the text that the zone is in. -/
theorem Literal.ZonesIn.length_body_lt {offset : Nat} {t : Text} {zs : List Zone} {z : Zone}
    (hzones : ZonesIn offset t zs) (hz : z ∈ zs) : z.body.length < t.length := by
  induction zs generalizing offset t with
  | nil => cases hz
  | cons z' zs ih =>
    obtain ⟨before, after, rfl, -, hopener, hrest⟩ := hzones
    have hpos : 0 < z'.opener.length := List.length_pos_iff.mpr hopener
    simp only [Zone.text, List.length_append]
    rcases List.mem_cons.mp hz with rfl | hz
    · omega
    · have hlt := ih hrest hz
      omega

namespace Run

variable {grammars : GrammarSet} {embedded embedded' : Embedded} {host : Grammar}

/-- The children of a literal use the runs of its expressions only. -/
theorem childrenFrom_congr {kind : TokenKind} {stop offset : Nat} {zs : List Zone}
    (h : ∀ z ∈ zs, expressionTokens grammars embedded host z =
      expressionTokens grammars embedded' host z) :
    childrenFrom grammars embedded host kind stop offset zs =
      childrenFrom grammars embedded' host kind stop offset zs := by
  induction zs generalizing offset with
  | nil => rfl
  | cons z zs ih =>
    obtain ⟨hz, hzs⟩ := List.forall_mem_cons.mp h
    rw [childrenFrom, childrenFrom, hz, ih hzs]

theorem splice_congr {raw : RawToken}
    (h : ∀ z ∈ raw.zones, expressionTokens grammars embedded host z =
      expressionTokens grammars embedded' host z) :
    splice grammars embedded host raw = splice grammars embedded' host raw := by
  rw [splice, splice, childrenFrom_congr h]

/-! ### The loop -/

/-- The loop through a range at the start of an iteration, at a depth of embedding. The text goes
up to the end of the range. -/
structure RangeLoop where
  depth : Nat
  stack : RegionStack
  offset : Nat
  text : Text

namespace RangeLoop

section Definitions

variable (k : Session)

/-- The loop in front of a range. -/
def start (root : Grammar) (depth offset : Nat) (t : Text) : RangeLoop :=
  ⟨depth, RegionStack.start root offset k.options.maxRegionDepth, offset, t⟩

variable (s : RangeLoop)

/-- The levels of embedding that are left. -/
def budget : Nat := k.options.maxInterpolationDepth - s.depth

/-- Whether the loop is stopped, which only happens in the document itself. -/
def isCancelled : Bool := s.depth == 0 && k.isCancelled

/-- What the loop returns and reports, by the function that runs. -/
def trace : Traced (List Token) :=
  forestFrom k.grammars (s.budget k) (below k.grammars k.options.maxRegionDepth (s.budget k))
    (s.isCancelled k) 0 s.stack s.offset s.text

/-- What the scanner finds. -/
def found : Match := s.stack.current.firstMatch (s.budget k) s.offset s.text

/-- The token that the scanner finds. -/
def raw : RawToken := RawToken.ofMatch (s.found k) s.offset s.text

/-- Whether an iteration finds a token. -/
def isOver : Bool := s.text.isEmpty || s.isCancelled k

/-- The run that is called for the expression of a zone: none if it is empty, and otherwise one
that is a level deeper, in the grammar of the zone or of the token. -/
def expression? (z : Zone) : Option RangeLoop :=
  if z.body.isEmpty then none
  else
    (match z.grammar with
      | some id => k.grammars.get? id
      | none => some s.stack.current).map fun g => start k g (s.depth + 1) z.bodyStart z.body

/-- The runs that an iteration calls. -/
def calls : List RangeLoop :=
  if s.isOver k then [] else (s.raw k).zones.filterMap (s.expression? k)

/-- The loop in its next iteration, behind the token and with the regions that its action leads
to. -/
def next? : Option RangeLoop :=
  if s.isOver k then none
  else
    match (act k.grammars s.stack (s.raw k).span (s.raw k).action).outcome with
    | .error _ => none
    | .ok stack =>
      some ⟨s.depth, stack, (s.raw k).span.stop, s.text.drop (s.found k).length⟩

end Definitions

/-- Goes through the loop. Gives up after a number of iterations and calls inside each other, also
if it is a call that has to be given up. -/
def finish (k : Session) : (steps : Nat) → RangeLoop → Option (Traced (List Token))
  | 0, _ => none
  | steps + 1, s =>
    if s.text.isEmpty then
      some do
        closeOut s.stack s.offset
        pure []
    else if s.isCancelled k then some (.fail .cancelled)
    else if (s.calls k).all fun call => (finish k steps call).isSome then
      ((s.next? k).elim (some (pure [])) fun next => finish k steps next).map fun rest => do
        Traced.report (s.found k).diagnostics
        let expressions : Embedded := fun root offset t =>
          (finish k steps (start k root (s.depth + 1) offset t)).getD (pure [])
        let token ← splice k.grammars expressions s.stack.current (s.raw k)
        let _ ← act k.grammars s.stack (s.raw k).span (s.raw k).action
        let tokens ← rest
        pure (token :: tokens)
    else none

variable {k : Session} {s s' inner : RangeLoop}

theorem trace_start (root : Grammar) (t : Text) (span : Span) (depth : Nat) :
    (start k root depth span.start (t.slice span)).trace k = k.trace t root span depth :=
  (forest_eq ..).symm

/-- The run of an expression is one with a level less. -/
theorem trace_inner (hpos : 0 < s.budget k) (root : Grammar) (offset : Nat) (t : Text) :
    (start k root (s.depth + 1) offset t).trace k =
      below k.grammars k.options.maxRegionDepth (s.budget k) root offset t := by
  obtain ⟨b, hb⟩ := Nat.exists_eq_add_one.mpr hpos
  have hinner : (start k root (s.depth + 1) offset t).budget k = b := by
    rw [budget] at hb ⊢
    dsimp only [start]
    omega
  rw [hb, trace, hinner]
  exact (forest_eq ..).symm

/-! ### One iteration -/

/-- An iteration finds a token, which reads something and leaves the rest of the text to the next.
Its zones are inside it, and there is budget for them; the grammars that they name are known. -/
structure Iterates (k : Session) (s next : RangeLoop) (p : Text) : Prop where
  next_eq : s.next? k = some next
  depth_eq : next.depth = s.depth
  within : next.stack.Within k.grammars
  ne_nil : p ≠ []
  cut : s.text = p ++ next.text
  length_eq : p.length = (s.found k).length
  span_eq : (s.raw k).span = ⟨s.offset, s.offset + p.width⟩
  offset_eq : next.offset = s.offset + p.width
  zones : Literal.ZonesIn s.offset p (s.raw k).zones
  budget_pos : ∀ z ∈ (s.raw k).zones, 0 < s.budget k
  grammar : ∀ z ∈ (s.raw k).zones, ∃ g ∈ k.grammars.grammars,
    (z.grammar = none ∧ g = s.stack.current ∨
      ∃ id, z.grammar = some id ∧ k.grammars.get? id = some g)
  act_eq : ∃ acted, act k.grammars s.stack (s.raw k).span (s.raw k).action = ⟨acted, .ok next.stack⟩

theorem exists_iterates (hk : k.grammars.Valid) (hs : s.stack.Within k.grammars)
    (hover : s.isOver k = false) : ∃ next p, Iterates k s next p := by
  have hne : s.text ≠ [] := by simpa using (Bool.or_eq_false_iff.mp hover).1
  obtain ⟨t, hat⟩ := exists_at s.offset s.text
  obtain ⟨raw, found, acted, stack, p, r, hturn⟩ := exists_turn (s.budget k) hk hs hat hne
  have hraw : raw = s.raw k := hturn.raw_eq
  subst hraw
  have hspan : (s.raw k).span = ⟨s.offset, s.offset + p.width⟩ := hturn.span_eq
  have hstart : (s.raw k).span.start = s.offset := rfl
  have hact : act k.grammars s.stack (s.raw k).span (s.raw k).action = ⟨acted, .ok stack⟩ :=
    hturn.act_eq
  have hlength : p.length = (s.found k).length := hturn.length_eq
  have hdrop : s.text.drop (s.found k).length = r := by
    rw [← hlength, hturn.cut, List.drop_left]
  refine ⟨⟨s.depth, stack, s.offset + p.width, r⟩, p, ?_, rfl, hturn.within, hturn.placed.ne_nil,
    hturn.cut, hlength, hspan, rfl, hturn.placed.zones, hturn.placed.budget_pos,
    fun z hz => hturn.placed.exists_grammar hz, acted, hact⟩
  rw [next?, hover, if_neg Bool.false_ne_true, hact, hdrop, hspan]

namespace Iterates

variable {next : RangeLoop} {p : Text}

/-- What the loop returns and reports is the token and the rest. -/
theorem trace_eq (h : Iterates k s next p) (hcancelled : s.isCancelled k = false) :
    s.trace k = (do
      Traced.report (s.found k).diagnostics
      let token ← splice k.grammars (below k.grammars k.options.maxRegionDepth (s.budget k))
        s.stack.current (s.raw k)
      let _ ← act k.grammars s.stack (s.raw k).span (s.raw k).action
      let tokens ← next.trace k
      pure (token :: tokens)) := by
  obtain ⟨acted, hact⟩ := h.act_eq
  have hraw : RawToken.ofMatch (s.found k) s.offset (p ++ next.text) = s.raw k := by
    rw [raw, h.cut]
  have hfound : s.stack.current.firstMatch (s.budget k) s.offset (p ++ next.text) = s.found k := by
    rw [found, h.cut]
  have hbudget : next.budget k = s.budget k := by rw [budget, budget, h.depth_eq]
  have hcancelled' : next.isCancelled k = false := by
    rw [isCancelled, h.depth_eq]
    exact hcancelled
  rw [trace, trace, hcancelled, hcancelled', hbudget, h.cut, h.offset_eq,
    forestFrom_step h.ne_nil hfound h.length_eq]
  dsimp only
  rw [hraw, hact]
  simp only [Traced.bind_ok]

/-- An expression that is not empty is run in its grammar. -/
theorem exists_expression?_eq (h : Iterates k s next p) {z : Zone} (hz : z ∈ (s.raw k).zones)
    (hne : z.body ≠ []) :
    ∃ g ∈ k.grammars.grammars, (z.grammar = none ∧ g = s.stack.current ∨
        ∃ id, z.grammar = some id ∧ k.grammars.get? id = some g) ∧
      s.expression? k z = some (start k g (s.depth + 1) z.bodyStart z.body) := by
  obtain ⟨g, hg, hgrammar⟩ := h.grammar z hz
  refine ⟨g, hg, hgrammar, ?_⟩
  rw [expression?, if_neg (by simpa using hne)]
  rcases hgrammar with ⟨hnone, rfl⟩ | ⟨id, hid, hget⟩
  · rw [hnone]
    rfl
  · rw [hid]
    dsimp only
    rw [hget]
    rfl

/-- **A run that is called** is in front of the expression of a zone, a level deeper. -/
theorem exists_zone_of_mem_calls (h : Iterates k s next p) (hinner : inner ∈ s.calls k) :
    ∃ z ∈ (s.raw k).zones, ∃ g ∈ k.grammars.grammars,
      inner = start k g (s.depth + 1) z.bodyStart z.body := by
  rw [calls] at hinner
  split at hinner
  · cases hinner
  obtain ⟨z, hz, hexpression⟩ := List.mem_filterMap.mp hinner
  by_cases hne : z.body = []
  · rw [expression?, hne] at hexpression
    cases hexpression
  · obtain ⟨g, hg, -, heq⟩ := h.exists_expression?_eq hz hne
    exact ⟨z, hz, g, hg, Option.some.inj (hexpression.symm.trans heq)⟩

theorem length_lt_of_mem_calls (h : Iterates k s next p) (hinner : inner ∈ s.calls k) :
    inner.text.length < s.text.length := by
  obtain ⟨z, hz, g, -, rfl⟩ := h.exists_zone_of_mem_calls hinner
  have hlt : z.body.length < p.length := h.zones.length_body_lt hz
  have hle : p.length ≤ s.text.length := by
    rw [h.cut, List.length_append]
    exact Nat.le_add_right _ _
  exact Nat.lt_of_lt_of_le hlt hle

theorem length_lt (h : Iterates k s next p) : next.text.length < s.text.length := by
  have hpos : 0 < p.length := List.length_pos_iff.mpr h.ne_nil
  rw [h.cut, List.length_append]
  omega

theorem within_of_mem_calls (h : Iterates k s next p) (hinner : inner ∈ s.calls k) :
    inner.stack.Within k.grammars := by
  obtain ⟨z, -, g, hg, rfl⟩ := h.exists_zone_of_mem_calls hinner
  exact RegionStack.within_start z.bodyStart _ hg

end Iterates

/-- **A run ends**, after no more iterations and calls inside each other than there are characters
and one more, and returns and reports what the function that runs does. -/
theorem finish_eq (hk : k.grammars.Valid) {steps : Nat} (hs : s.stack.Within k.grammars)
    (hlt : s.text.length < steps) : s.finish k steps = some (s.trace k) := by
  induction steps generalizing s with
  | zero => exact absurd hlt (Nat.not_lt_zero _)
  | succ steps ih =>
    rw [finish]
    by_cases hempty : s.text.isEmpty = true
    · rw [if_pos hempty, trace, List.isEmpty_iff.mp hempty]
      rfl
    rw [if_neg hempty]
    by_cases hcancelled : s.isCancelled k = true
    · obtain ⟨c, t, htext⟩ := List.exists_cons_of_ne_nil (by simpa using hempty)
      rw [if_pos hcancelled, trace, hcancelled, htext]
      rfl
    rw [if_neg hcancelled]
    have hcancelled : s.isCancelled k = false := by simpa using hcancelled
    have hover : s.isOver k = false := by simp [isOver, hempty, hcancelled]
    obtain ⟨next, p, h⟩ := exists_iterates hk hs hover
    have hcall : ∀ inner ∈ s.calls k, finish k steps inner = some (inner.trace k) :=
      fun inner hinner => ih (h.within_of_mem_calls hinner)
        (Nat.lt_of_lt_of_le (h.length_lt_of_mem_calls hinner) (Nat.le_of_lt_succ hlt))
    have hall : ((s.calls k).all fun inner => (finish k steps inner).isSome) = true :=
      List.all_eq_true.mpr fun inner hinner => by rw [hcall inner hinner, Option.isSome_some]
    have hnext : finish k steps next = some (next.trace k) :=
      ih h.within (Nat.lt_of_lt_of_le h.length_lt (Nat.le_of_lt_succ hlt))
    rw [if_pos hall, h.next_eq, Option.elim_some, hnext, h.trace_eq hcancelled, Option.map_some]
    refine congrArg some ?_
    -- The expressions of the token are the only texts that are run below it.
    rw [splice_congr fun z hz => ?_]
    by_cases hne : z.body = []
    · rw [expressionTokens, expressionTokens, hne]
      rfl
    · obtain ⟨g, -, hgrammar, hexpression⟩ := h.exists_expression?_eq hz hne
      have hmem : start k g (s.depth + 1) z.bodyStart z.body ∈ s.calls k := by
        rw [calls, hover, if_neg Bool.false_ne_true]
        exact List.mem_filterMap.mpr ⟨z, hz, hexpression⟩
      rw [expressionTokens_eq hne hgrammar, expressionTokens_eq hne hgrammar, hcall _ hmem,
        Option.getD_some, trace_inner (h.budget_pos z hz)]

/-! ### Loops inside each other -/

/-- A loop needs the loop in its next iteration, and the runs that its iteration calls. -/
def Needs (k : Session) (c c' : RangeLoop) : Prop := c.next? k = some c' ∨ c' ∈ c.calls k

theorem isOver_of_needs (h : Needs k s s') : s.isOver k = false := by
  by_contra hover
  have hover : s.isOver k = true := by simpa using hover
  rcases h with hnext | hcall
  · rw [next?, if_pos hover] at hnext
    cases hnext
  · rw [calls, if_pos hover] at hcall
    cases hcall

/-- **What all loops keep** that a run comes to: their regions are of grammars of the set. -/
theorem within_of_needs (hk : k.grammars.Valid) (hs : s.stack.Within k.grammars)
    (h : Relation.ReflTransGen (Needs k) s s') : s'.stack.Within k.grammars := by
  induction h with
  | refl => exact hs
  | tail _ hneeds ih =>
    obtain ⟨next, p, h⟩ := exists_iterates hk ih (isOver_of_needs hneeds)
    rcases hneeds with hnext | hcall
    · exact Option.some.inj (h.next_eq.symm.trans hnext) ▸ h.within
    · exact h.within_of_mem_calls hcall

/-- **A run ends**, with all that it calls. -/
structure Terminates (k : Session) (s : RangeLoop) : Prop where
  /-- It ends after so many iterations and calls inside each other, with what it returns and
  reports. -/
  finish : s.finish k (s.text.length + 1) = some (s.trace k)
  /-- Every iteration advances to the end of its token, and stays at or below the end of the
  range. -/
  advances : ∀ c next, Relation.ReflTransGen (Needs k) s c → c.next? k = some next →
    c.offset < next.offset ∧ next.offset = (c.raw k).span.stop ∧
      next.offset ≤ c.offset + c.text.width
  /-- A run that is called is over a range inside the range of its token, and smaller. -/
  inside : ∀ c inner, Relation.ReflTransGen (Needs k) s c → inner ∈ c.calls k →
    (c.raw k).span.start < inner.offset ∧
      inner.offset + inner.text.width ≤ (c.raw k).span.stop
  /-- A run that is called has one level less. -/
  deeper : ∀ c inner, Relation.ReflTransGen (Needs k) s c → inner ∈ c.calls k →
    inner.budget k + 1 = c.budget k

namespace Iterates

variable {next : RangeLoop} {p : Text}

theorem stop_le (h : Iterates k s next p) : s.offset + p.width ≤ s.offset + s.text.width := by
  rw [h.cut, Text.width_append]
  omega

/-- **The run of an expression is inside its token.** -/
theorem inside_of_mem_calls (h : Iterates k s next p) (hinner : inner ∈ s.calls k) :
    s.offset < inner.offset ∧ inner.offset + inner.text.width ≤ s.offset + p.width := by
  obtain ⟨z, hz, g, -, rfl⟩ := h.exists_zone_of_mem_calls hinner
  obtain ⟨hle, hlt⟩ := h.zones.bounds_of_mem hz
  have hstop : z.stop ≤ s.offset + p.width := h.zones.stop_le_of_mem hz
  have hclose : z.bodyStart + z.body.width ≤ z.stop := Nat.le_add_right z.bodyStop z.closer.width
  exact ⟨Nat.lt_of_le_of_lt hle hlt, Nat.le_trans hclose hstop⟩

/-- **The run of an expression has one level less.** -/
theorem budget_of_mem_calls (h : Iterates k s next p) (hinner : inner ∈ s.calls k) :
    inner.budget k + 1 = s.budget k := by
  obtain ⟨z, hz, g, -, rfl⟩ := h.exists_zone_of_mem_calls hinner
  have hpos : 0 < s.budget k := h.budget_pos z hz
  rw [budget] at hpos
  rw [budget, budget]
  dsimp only [start]
  omega

end Iterates

theorem terminates (hk : k.grammars.Valid) (hs : s.stack.Within k.grammars) :
    s.Terminates k where
  finish := finish_eq hk hs (Nat.lt_succ_self _)
  advances := by
    intro c next hreaches hnext
    obtain ⟨next', p, h⟩ := exists_iterates hk (within_of_needs hk hs hreaches)
      (isOver_of_needs (.inl hnext))
    obtain rfl : next' = next := Option.some.inj (h.next_eq.symm.trans hnext)
    rw [h.offset_eq, h.span_eq]
    exact ⟨Nat.lt_add_of_pos_right (Text.width_pos h.ne_nil), rfl, h.stop_le⟩
  inside := by
    intro c inner hreaches hinner
    obtain ⟨next, p, h⟩ := exists_iterates hk (within_of_needs hk hs hreaches)
      (isOver_of_needs (.inr hinner))
    rw [h.span_eq]
    exact h.inside_of_mem_calls hinner
  deeper := by
    intro c inner hreaches hinner
    obtain ⟨next, p, h⟩ := exists_iterates hk (within_of_needs hk hs hreaches)
      (isOver_of_needs (.inr hinner))
    exact h.budget_of_mem_calls hinner

end RangeLoop

end Run

/-- **Scanning and splicing terminate.** In a set that has been built, the loop through the body of
any literal of a rule ends, whatever the text and the budget are, and so does the run over any
range of a text, with a grammar of the set, at any depth and with any options. The loop through a
body is run with its jumps, and so is a run, with the scanners that it starts in one loop. They
give what the functions give that run, and all that a run changes in its session are the reports
of its loop, which it appends. -/
theorem Session.scanning_and_splicing_terminate {grammars : List Grammar} {set : GrammarSet}
    (h : GrammarSet.build grammars = .ok set) :
    (∀ host, Literal.Hosted set host → ∀ budget offset t,
      let body : Literal.BodyLoop := { host, offset, text := t, budget }
      body.Terminates ∧ body.scan = Literal.scanBody budget host offset t) ∧
    ∀ k : Session, k.grammars = set → ∀ root ∈ set.grammars, ∀ t span depth,
      let run := Run.RangeLoop.start k root depth span.start (t.slice span)
      run.Terminates k ∧ run.trace k = k.trace t root span depth ∧
        k.runRange t root span depth =
          ((run.trace k).outcome,
            { k with diagnostics := k.diagnostics ++ (run.trace k).diagnostics }) := by
  have hvalid := GrammarSet.valid_of_build h
  constructor
  · intro host hhost budget offset t
    refine ⟨Literal.BodyLoop.terminates (hhost.hasDelimiters hvalid), ?_⟩
    exact (Literal.scanBody_eq budget host offset t).symm
  · rintro k rfl root hroot t span depth
    have htrace := Run.RangeLoop.trace_start (k := k) root t span depth
    refine ⟨Run.RangeLoop.terminates hvalid ?_, htrace, ?_⟩
    · exact RegionStack.within_start span.start _ hroot
    · rw [htrace]
      exact k.runRange_eq t root span depth

/-- The case of a literal in an expression of a literal of the same kind, with one level. -/
theorem Session.scanning_and_splicing_terminate_nested :
    let spec : Delimited := ⟨['"'], ['"'], none, false, [.braced ['{'] ['}'] none]⟩
    let g : Grammar := ⟨"q", [⟨.string, .delimited spec, none⟩], false⟩
    let k : Session := { grammars := ⟨[g]⟩, options := { maxInterpolationDepth := 1 } }
    let t : Text := ['"', '{', '"', '{', 'a', '}', '"', '}', '"']
    let body : Literal.BodyLoop :=
      ⟨⟨Literal.Host.ofDelimited spec 0 g.literals, 1, t.drop 1⟩, 1, false⟩
    let run := Run.RangeLoop.start k g 0 0 (t.slice ⟨0, 9⟩)
    GrammarSet.build [g] = .ok k.grammars ∧ g ∈ k.grammars.grammars ∧
      body.Terminates ∧ body.scan.length = 8 ∧ run.Terminates k := by
  intro spec g k t body run
  have hbuild : GrammarSet.build [g] = .ok k.grammars := rfl
  have hg : g ∈ k.grammars.grammars := List.mem_cons_self
  obtain ⟨hbody, hrun⟩ := scanning_and_splicing_terminate hbuild
  have hhost : Literal.Hosted k.grammars (Literal.Host.ofDelimited spec 0 g.literals) :=
    .delimited hg List.mem_cons_self rfl 0
  exact ⟨hbuild, hg, (hbody _ hhost 1 1 (t.drop 1)).1, by decide +kernel,
    (hrun k rfl g hg t ⟨0, 9⟩ 0).1⟩

end Polylex
