import Polylex.Pattern.Program

/-!
# Programs that are written for expressions

An instruction names other instructions by their index, and nothing in the type of programs keeps
an index from leading out of the program. The programs that are written for expressions are *well
formed* (`Polylex.Program.WellFormed`): every index leads to an instruction, and the anchors that
are checked are anchors of the expression.

Programs are written from the back. A piece is appended to what comes after it, so it refers to
instructions that are there already, or to its own; only a loop refers forward, from a place that
is taken first and filled last. What every piece keeps is therefore said about the program in front
of it and the program behind it (`Polylex.Program.Extends`), and the induction over expressions has
one case for each way to put pieces together (`Polylex.Program.extending_compile`).
-/

namespace Polylex

/-- The anchors in an expression. -/
def Regex.anchors : Regex → List Anchor
  | empty | one _ => []
  | anchor a => [a]
  | seq p q | either p q => p.anchors ++ q.anchors
  | repeated p _ _ _ | group p => p.anchors

/-! ### Well-formed programs -/

/-- An instruction fits a program of some size: it leads to instructions of the program, and an
anchor that it checks is allowed. -/
def Instruction.Fits (allowed : Anchor → Prop) (size : Nat) : Instruction → Prop
  | read _ next => next < size
  | check a next => allowed a ∧ next < size
  | fork first second => first < size ∧ second < size
  | accept => True

theorem Instruction.Fits.mono {allowed : Anchor → Prop} {instruction : Instruction} {m n : Nat}
    (hle : m ≤ n) (h : instruction.Fits allowed m) : instruction.Fits allowed n := by
  cases instruction with
  | read s next => exact Nat.lt_of_lt_of_le h hle
  | check a next => exact ⟨h.1, Nat.lt_of_lt_of_le h.2 hle⟩
  | fork first second => exact ⟨Nat.lt_of_lt_of_le h.1 hle, Nat.lt_of_lt_of_le h.2 hle⟩
  | accept => trivial

namespace Program

variable {allowed : Anchor → Prop} {code : Array Instruction} {next : Nat}

/-- **A well-formed program**: all its instructions fit it. -/
def WellFormed (allowed : Anchor → Prop) (code : Array Instruction) : Prop :=
  ∀ (i : Nat) (instruction : Instruction), code[i]? = some instruction →
    instruction.Fits allowed code.size

theorem WellFormed.push {instruction : Instruction} (h : WellFormed allowed code)
    (hfits : instruction.Fits allowed (code.size + 1)) :
    WellFormed allowed (code.push instruction) := by
  intro i other hi
  rw [Array.size_push]
  rw [Array.getElem?_push] at hi
  split at hi
  · exact Option.some.inj hi ▸ hfits
  · exact (h i other hi).mono (Nat.le_succ _)

theorem WellFormed.setIfInBounds {instruction : Instruction} (h : WellFormed allowed code)
    (i : Nat) (hfits : instruction.Fits allowed code.size) :
    WellFormed allowed (code.setIfInBounds i instruction) := by
  intro j other hj
  rw [Array.size_setIfInBounds]
  rw [Array.getElem?_setIfInBounds] at hj
  split at hj
  · split at hj
    · exact Option.some.inj hj ▸ hfits
    · cases hj
  · exact h j other hj

/-- What a piece makes of a program: one that is well formed and not smaller, with an instruction
to start from. -/
structure Extends (allowed : Anchor → Prop) (code : Array Instruction)
    (result : Nat × Array Instruction) : Prop where
  start_lt : result.1 < result.2.size
  size_le : code.size ≤ result.2.size
  wellFormed : WellFormed allowed result.2

/-- **A piece extends programs**, whatever well-formed program it is put in front of. -/
def Extending (allowed : Anchor → Prop) (p : Fragment) : Prop :=
  ∀ next code, next < code.size → WellFormed allowed code → Extends allowed code (p next code)

/-! ### Putting pieces together -/

theorem Extends.trans {start : Nat} {result : Nat × Array Instruction} {code' : Array Instruction}
    (h : Extends allowed code (start, code')) (h' : Extends allowed code' result) :
    Extends allowed code result :=
  ⟨h'.start_lt, Nat.le_trans h.size_le h'.size_le, h'.wellFormed⟩

/-- One more instruction extends a program, and is the one to start from. -/
theorem WellFormed.extends_push {instruction : Instruction} (h : WellFormed allowed code)
    (hfits : instruction.Fits allowed (code.size + 1)) :
    Extends allowed code (code.size, code.push instruction) where
  start_lt := by simp
  size_le := by simp
  wellFormed := h.push hfits

variable {p q : Fragment}

theorem extending_none : Extending allowed .none :=
  fun _ _ hnext hcode => ⟨hnext, Nat.le_refl _, hcode⟩

theorem extending_single {instruction : Nat → Instruction}
    (h : ∀ next size, next < size → (instruction next).Fits allowed size) :
    Extending allowed (.single instruction) :=
  fun _ _ hnext hcode => hcode.extends_push (h _ _ (Nat.lt_succ_of_lt hnext))

theorem Extending.andThen (hp : Extending allowed p) (hq : Extending allowed q) :
    Extending allowed (p.andThen q) := by
  intro next code hnext hcode
  have hsecond := hq next code hnext hcode
  exact hsecond.trans (hp _ _ hsecond.start_lt hsecond.wellFormed)

theorem Extending.orElse (hp : Extending allowed p) (hq : Extending allowed q) :
    Extending allowed (p.orElse q) := by
  intro next code hnext hcode
  have hsecond := hq next code hnext hcode
  have hfirst := hp next _ (Nat.lt_of_lt_of_le hnext hsecond.size_le) hsecond.wellFormed
  have hfork : Instruction.Fits allowed ((p next (q next code).2).2.size + 1)
      (.fork (p next (q next code).2).1 (q next code).1) :=
    ⟨Nat.lt_succ_of_lt hfirst.start_lt,
      Nat.lt_succ_of_lt (Nat.lt_of_lt_of_le hsecond.start_lt hfirst.size_le)⟩
  exact (hsecond.trans hfirst).trans (hfirst.wellFormed.extends_push hfork)

theorem Extending.optional (hp : Extending allowed p) (greedy : Bool) :
    Extending allowed (p.optional greedy) := by
  cases greedy with
  | false => exact extending_none.orElse hp
  | true => exact hp.orElse extending_none

/-- The place of a loop is filled by a fork that fits. Both the fork and the expression can be
started from. -/
theorem Extending.loop (hp : Extending allowed p) (greedy : Bool) (hnext : next < code.size)
    (hcode : WellFormed allowed code) :
    Extends allowed code ((p.loop greedy next code).1.1, (p.loop greedy next code).2) ∧
      Extends allowed code ((p.loop greedy next code).1.2, (p.loop greedy next code).2) := by
  have hplace : WellFormed allowed (code.push .accept) := hcode.push trivial
  have hbody := hp code.size (code.push .accept) (by simp) hplace
  have hsize : code.size + 1 ≤ (p code.size (code.push .accept)).2.size := by
    simpa using hbody.size_le
  have hfork : Instruction.Fits allowed (p code.size (code.push .accept)).2.size
      (if greedy then .fork (p code.size (code.push .accept)).1 next
        else .fork next (p code.size (code.push .accept)).1) := by
    cases greedy with
    | false => exact ⟨by omega, hbody.start_lt⟩
    | true => exact ⟨hbody.start_lt, by omega⟩
  have hfilled := hbody.wellFormed.setIfInBounds code.size hfork
  constructor
  · refine ⟨?_, ?_, hfilled⟩
    · simp only [Fragment.loop, Array.size_setIfInBounds]
      omega
    · simp only [Fragment.loop, Array.size_setIfInBounds]
      omega
  · refine ⟨?_, ?_, hfilled⟩
    · simp only [Fragment.loop, Array.size_setIfInBounds]
      exact hbody.start_lt
    · simp only [Fragment.loop, Array.size_setIfInBounds]
      omega

theorem Extending.star (hp : Extending allowed p) (greedy : Bool) :
    Extending allowed (p.star greedy) :=
  fun _ _ hnext hcode => (hp.loop greedy hnext hcode).1

theorem Extending.plus (hp : Extending allowed p) (greedy : Bool) :
    Extending allowed (p.plus greedy) :=
  fun _ _ hnext hcode => (hp.loop greedy hnext hcode).2

theorem Extending.copies (hp : Extending allowed p) (n : Nat) : Extending allowed (p.copies n) := by
  induction n with
  | zero => exact extending_none
  | succ n ih => exact hp.andThen ih

theorem Extending.upTo (hp : Extending allowed p) (greedy : Bool) (n : Nat) :
    Extending allowed (p.upTo greedy n) := by
  induction n with
  | zero => exact extending_none
  | succ n ih => exact (hp.andThen ih).optional greedy

theorem Extending.times (hp : Extending allowed p) (greedy alwaysReads : Bool) (least : Nat)
    (most : Option Nat) : Extending allowed (p.times greedy alwaysReads least most) := by
  cases most with
  | some most =>
    have hbounded : p.times greedy alwaysReads least (some most) =
        (p.copies least).andThen (p.upTo greedy (most - least)) := by cases least <;> rfl
    exact hbounded ▸ (hp.copies least).andThen (hp.upTo greedy _)
  | none =>
    cases least with
    | zero =>
      rw [Fragment.times]
      split
      · exact hp.star greedy
      · exact (hp.plus greedy).optional greedy
    | succ least => exact (hp.copies least).andThen (hp.plus greedy)

/-! ### Programs of expressions -/

/-- **The instructions of an expression extend programs**, by anchors of the expression. -/
theorem extending_compile {r : Regex} (h : ∀ a ∈ r.anchors, allowed a) :
    Extending allowed (compile r) := by
  induction r with
  | empty => exact extending_none
  | one s => exact extending_single fun _ _ hnext => hnext
  | anchor a => exact extending_single fun _ _ hnext => ⟨h a List.mem_cons_self, hnext⟩
  | seq p q ihp ihq =>
    obtain ⟨hp, hq⟩ := List.forall_mem_append.mp h
    exact (ihp hp).andThen (ihq hq)
  | either p q ihp ihq =>
    obtain ⟨hp, hq⟩ := List.forall_mem_append.mp h
    exact (ihp hp).orElse (ihq hq)
  | repeated p least most greedy ih => exact (ih h).times greedy p.alwaysReads least most
  | group p ih => exact ih h

/-- **The program of an expression is well formed**, and starts with one of its instructions. -/
theorem wellFormed_ofRegex (r : Regex) :
    (ofRegex r).start < (ofRegex r).code.size ∧ WellFormed (· ∈ r.anchors) (ofRegex r).code := by
  have haccept : WellFormed (· ∈ r.anchors) #[.accept] := by
    intro i instruction hi
    obtain rfl : i = 0 := by simpa using (Array.getElem?_eq_some_iff.mp hi).1
    cases hi
    trivial
  have hcompile : Extends (· ∈ r.anchors) #[.accept] (compile r 0 #[.accept]) :=
    extending_compile (fun _ ha => ha) 0 #[.accept] Nat.one_pos haccept
  exact ⟨hcompile.start_lt, hcompile.wellFormed⟩

end Program

end Polylex
