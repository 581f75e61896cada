import Mathlib.Data.List.Perm.Subperm
import Mathlib.Data.List.TakeWhile
import Polylex.Grammar.Set
import Polylex.Proofs.Pattern.Program

/-!
# Programs that prefer to read nothing

A program that does not match the empty text may still prefer the empty match at the start of
another text. This file says where the program of an expression does so: only in front of a word
character, and only if a word boundary is checked in the expression. So the written patterns that
are not refused have an empty match that is discarded there, and nowhere else
(`Polylex.Matcher.exists_mayStopAtWord_of_ofPattern`).

What a program reads at a place begins with a walk between two characters that reads nothing.
Acceptance is out of its reach exactly if the walk is caught in a *trap*
(`Polylex.Program.Trap`), a list of instructions without acceptance that it cannot leave: a walk
that starts in a trap does not accept (`Polylex.Program.accepts_of_trap`), and the instructions
that a walk without acceptance has visited are a trap
(`Polylex.Program.exists_trap_of_not_accepts`). So the traps of the empty text are compared with
those of another text. They differ by the anchors that are checked, and at the start of a text the
only anchor that can hold without holding in the empty text is a word boundary
(`Polylex.Anchor.holds_start`).
-/

namespace Polylex

/-- At the start of a text a word boundary is the only anchor that can hold although it does not
hold in the empty text, and it does so only in front of a word character. -/
theorem Anchor.holds_start {a : Anchor} {c : Char} (h : a.holds none (some c) = true)
    (hempty : a.holds none none = false) : a = .wordBoundary ∧ Unicode.isWord c = true := by
  cases a with
  | wordBoundary => exact ⟨rfl, by simpa [holds, isWordBoundary] using h⟩
  | textStart | textEnd | lineStart | lineEnd | noWordBoundary =>
    simp [holds, isWordBoundary] at hempty

/-- An expression has a word boundary in it, and a text begins with a word character. -/
def Regex.MayStopAtWord (r : Regex) (t : Text) : Prop :=
  .wordBoundary ∈ r.anchors ∧ ∃ c rest, t = c :: rest ∧ Unicode.isWord c = true

/-- Where a thread at an instruction goes on between two characters. -/
def Instruction.targets (before after : Option Char) : Instruction → List Nat
  | read _ _ | accept => []
  | check a next => if a.holds before after then [next] else []
  | fork first second => [first, second]

namespace Program

variable {code : Array Instruction} {before after : Option Char}

/-! ### Walks between two characters -/

/-- Where a thread at a place of a program goes on between two characters. -/
def targets (code : Array Instruction) (before after : Option Char) (i : Nat) : List Nat :=
  match code[i]? with
  | some instruction => instruction.targets before after
  | none => []

section Walk

variable {steps i : Nat} {threads visited rest : List Nat}

theorem accepts_followFor_of_nil (h : threads.dropWhile visited.contains = []) :
    (followFor code before after steps threads visited).accepts = false := by
  cases steps with
  | zero => rfl
  | succ steps => rw [followFor, h]

/-- Whether a walk accepts, from its first new instruction. -/
theorem accepts_followFor_of_cons (h : threads.dropWhile visited.contains = i :: rest) :
    (followFor code before after (steps + 1) threads visited).accepts =
      (code[i]? == some .accept ||
        (followFor code before after steps (targets code before after i ++ rest)
          (i :: visited)).accepts) := by
  cases hi : code[i]? with
  | none => simp [followFor, h, targets, hi]
  | some instruction =>
    cases instruction with
    | read s next => simp [followFor, h, targets, hi, Instruction.targets]
    | accept => simp [followFor, h, hi]
    | fork first second => simp [followFor, h, targets, hi, Instruction.targets]
    | check a next =>
      cases hholds : a.holds before after <;>
        simp [followFor, h, targets, hi, Instruction.targets, hholds]

/-- A thread has been visited, or it is the first new one, or it comes after that. -/
theorem mem_of_dropWhile_eq_cons (h : threads.dropWhile visited.contains = i :: rest) {j : Nat}
    (hj : j ∈ threads) : j ∈ i :: visited ∨ j ∈ rest := by
  rw [← List.takeWhile_append_dropWhile (p := visited.contains) (l := threads), h] at hj
  rcases List.mem_append.mp hj with hseen | hnew
  · exact .inl (List.mem_cons_of_mem i (by simpa using List.mem_takeWhile_imp hseen))
  · rcases List.mem_cons.mp hnew with rfl | hrest
    · exact .inl List.mem_cons_self
    · exact .inr hrest

end Walk

/-! ### Traps -/

/-- **A trap**: places of a program that threads do not leave between two characters, none of
which accepts. -/
structure Trap (code : Array Instruction) (before after : Option Char) (places : List Nat) :
    Prop where
  stays : ∀ i ∈ places, ∀ j ∈ targets code before after i, j ∈ places
  not_accept : ∀ i ∈ places, code[i]? ≠ some .accept

/-- **A walk that starts in a trap does not accept.** -/
theorem accepts_of_trap {steps : Nat} {threads visited places : List Nat}
    (h : Trap code before after places) (hthreads : ∀ i ∈ threads, i ∈ places) :
    (followFor code before after steps threads visited).accepts = false := by
  induction steps generalizing threads visited with
  | zero => rfl
  | succ steps ih =>
    match hdrop : threads.dropWhile visited.contains with
    | [] => exact accepts_followFor_of_nil hdrop
    | i :: rest =>
      have hmem : ∀ j ∈ i :: rest, j ∈ places := fun j hj =>
        hthreads j ((List.dropWhile_suffix _).subset (hdrop ▸ hj))
      obtain ⟨hi, hrest⟩ := List.forall_mem_cons.mp hmem
      rw [accepts_followFor_of_cons hdrop, ih, Bool.or_false, beq_eq_false_iff_ne]
      · exact h.not_accept i hi
      · exact List.forall_mem_append.mpr ⟨h.stays i hi, hrest⟩

/-- What a walk keeps as long as it does not accept: it has steps for the instructions that are
left, and where it can go on from the ones it has visited is visited or still to come. -/
structure Walk (code : Array Instruction) (before after : Option Char) (steps : Nat)
    (threads visited : List Nat) : Prop where
  enough : code.size ≤ steps + visited.length
  nodup : visited.Nodup
  visited_lt : ∀ i ∈ visited, i < code.size
  threads_lt : ∀ i ∈ threads, i < code.size
  stays : ∀ i ∈ visited, ∀ j ∈ targets code before after i, j ∈ visited ∨ j ∈ threads
  not_accept : ∀ i ∈ visited, code[i]? ≠ some .accept

theorem WellFormed.targets_lt {allowed : Anchor → Prop} (h : WellFormed allowed code) (i : Nat) :
    ∀ j ∈ targets code before after i, j < code.size := by
  intro j hj
  rw [targets] at hj
  split at hj
  next instruction hi =>
    have hfits := h i instruction hi
    cases instruction with
    | read s next => cases hj
    | accept => cases hj
    | fork first second =>
      rcases List.mem_pair.mp hj with rfl | rfl
      · exact hfits.1
      · exact hfits.2
    | check a next =>
      rw [Instruction.targets] at hj
      split at hj
      · exact List.mem_singleton.mp hj ▸ hfits.2
      · cases hj
  next => cases hj

namespace Walk

variable {steps i : Nat} {threads visited rest : List Nat}

/-- A walk without steps has visited every instruction. -/
theorem mem_visited (h : Walk code before after 0 threads visited) (hi : i < code.size) :
    i ∈ visited := by
  have hsubperm : visited.Subperm (List.range code.size) :=
    h.nodup.subperm fun j hj => List.mem_range.mpr (h.visited_lt j hj)
  have hperm : visited.Perm (List.range code.size) :=
    hsubperm.perm_of_length_le (by simpa using h.enough)
  exact hperm.mem_iff.mpr (List.mem_range.mpr hi)

/-- The instructions of a walk are a trap once no thread is new. -/
theorem trap (h : Walk code before after steps threads visited)
    (hthreads : ∀ i ∈ threads, i ∈ visited) : Trap code before after visited :=
  ⟨fun i hi j hj => (h.stays i hi j hj).elim id (hthreads j), h.not_accept⟩

/-- One step of a walk. -/
theorem next (h : Walk code before after (steps + 1) threads visited)
    (hdrop : threads.dropWhile visited.contains = i :: rest) (haccept : code[i]? ≠ some .accept)
    (htargets : ∀ j ∈ targets code before after i, j < code.size) :
    Walk code before after steps (targets code before after i ++ rest) (i :: visited) := by
  have hmem : ∀ j ∈ i :: rest, j ∈ threads := fun j hj =>
    (List.dropWhile_suffix _).subset (hdrop ▸ hj)
  obtain ⟨hi, hrest⟩ := List.forall_mem_cons.mp hmem
  have hnew : i ∉ visited := by
    have hne : threads.dropWhile visited.contains ≠ [] := by simp [hdrop]
    simpa [hdrop] using List.head_dropWhile_not visited.contains hne
  refine ⟨?_, List.nodup_cons.mpr ⟨hnew, h.nodup⟩,
    List.forall_mem_cons.mpr ⟨h.threads_lt i hi, h.visited_lt⟩,
    List.forall_mem_append.mpr ⟨htargets, fun j hj => h.threads_lt j (hrest j hj)⟩, ?_,
    List.forall_mem_cons.mpr ⟨haccept, h.not_accept⟩⟩
  · have henough := h.enough
    rw [List.length_cons]
    omega
  · intro k hk j hj
    rcases List.mem_cons.mp hk with rfl | hk
    · exact .inr (List.mem_append_left _ hj)
    · rcases h.stays k hk j hj with hvisited | hthread
      · exact .inl (List.mem_cons_of_mem i hvisited)
      · exact (mem_of_dropWhile_eq_cons hdrop hthread).imp_right (List.mem_append_right _)

end Walk

/-- **A walk that does not accept is caught in a trap.** -/
theorem exists_trap_of_walk {allowed : Anchor → Prop} (hcode : WellFormed allowed code)
    {steps : Nat} {threads visited : List Nat} (h : Walk code before after steps threads visited)
    (hfalse : (followFor code before after steps threads visited).accepts = false) :
    ∃ places, Trap code before after places ∧ (∀ i ∈ threads, i ∈ places) ∧
      ∀ i ∈ visited, i ∈ places := by
  induction steps generalizing threads visited with
  | zero =>
    have hthreads : ∀ i ∈ threads, i ∈ visited := fun i hi => h.mem_visited (h.threads_lt i hi)
    exact ⟨visited, h.trap hthreads, hthreads, fun i hi => hi⟩
  | succ steps ih =>
    match hdrop : threads.dropWhile visited.contains with
    | [] =>
      have hthreads : ∀ i ∈ threads, i ∈ visited := by
        simpa using List.dropWhile_eq_nil_iff.mp hdrop
      exact ⟨visited, h.trap hthreads, hthreads, fun i hi => hi⟩
    | i :: rest =>
      rw [accepts_followFor_of_cons hdrop, Bool.or_eq_false_iff, beq_eq_false_iff_ne] at hfalse
      obtain ⟨haccept, hrestFalse⟩ := hfalse
      obtain ⟨places, htrap, hthreads, hvisited⟩ :=
        ih (h.next hdrop haccept (hcode.targets_lt i)) hrestFalse
      obtain ⟨-, hrest⟩ := List.forall_mem_append.mp hthreads
      refine ⟨places, htrap, fun j hj => ?_, (List.forall_mem_cons.mp hvisited).2⟩
      exact (mem_of_dropWhile_eq_cons hdrop hj).elim (hvisited j) (hrest j)

/-- The walk of a program from its first instruction. -/
theorem exists_trap_of_not_accepts {allowed : Anchor → Prop} {p : Program}
    (hcode : WellFormed allowed p.code) (hstart : p.start < p.code.size)
    (h : (p.follow before after [p.start]).accepts = false) :
    ∃ places, Trap p.code before after places ∧ p.start ∈ places := by
  have hwalk : Walk p.code before after p.code.size [p.start] [] :=
    ⟨by simp, .nil, by simp, by simpa using hstart, by simp, by simp⟩
  obtain ⟨places, htrap, hthreads, -⟩ := exists_trap_of_walk hcode hwalk h
  exact ⟨places, htrap, hthreads _ List.mem_cons_self⟩

/-! ### The start of a text -/

/-- **A trap of the empty text is a trap at the start of every text**, unless a word boundary is
checked in front of a word character. -/
theorem Trap.start {allowed : Anchor → Prop} {places : List Nat} {c : Char}
    (hcode : WellFormed allowed code) (h : Trap code none none places)
    (hword : ¬(allowed .wordBoundary ∧ Unicode.isWord c = true)) :
    Trap code none (some c) places := by
  refine ⟨fun i hi j hj => h.stays i hi j ?_, h.not_accept⟩
  rw [targets] at hj ⊢
  split at hj
  next instruction hinstruction =>
    cases instruction with
    | read s next => exact hj
    | accept => exact hj
    | fork first second => exact hj
    | check a next =>
      rw [Instruction.targets] at hj ⊢
      split at hj
      next hholds =>
        cases hempty : a.holds none none with
        | true => exact hj
        | false =>
          -- only a word boundary is left, and the program would have to check it here
          obtain ⟨rfl, hc⟩ := Anchor.holds_start hholds hempty
          exact absurd ⟨(hcode i _ hinstruction).1, hc⟩ hword
      next => cases hj
  next => cases hj

/-- An empty match is preferred where the walk from the start accepts. -/
theorem accepts_of_matchAt?_eq_zero {p : Program} {c : Char} {t : Text}
    (h : p.matchAt? (c :: t) = some 0) : (p.follow none (some c) [p.start]).accepts = true := by
  rw [matchAt?, preferred?] at h
  dsimp only at h
  split at h
  next => cases h
  next =>
    split at h
    next haccepts => exact haccepts
    next => cases h

theorem follow_of_matchAt?_nil_eq_none {p : Program} (h : p.matchAt? [] = none) :
    (p.follow none none [p.start]).accepts = false := by
  rw [matchAt?, preferred?] at h
  split at h
  next => cases h
  next hfalse => exact Bool.eq_false_iff.mpr hfalse

/-- **Where a program prefers to read nothing.** The program of an expression that does not match
the empty text prefers the empty match at the start of a text only if the expression has a word
boundary in it and the text begins with a word character. -/
theorem mayStopAtWord_of_matchAt?_eq_zero {r : Regex} (h : (ofRegex r).matchAt? [] = none)
    {t : Text} (hzero : (ofRegex r).matchAt? t = some 0) : r.MayStopAtWord t := by
  obtain ⟨hstart, hcode⟩ := wellFormed_ofRegex r
  obtain ⟨places, htrap, hmem⟩ :=
    exists_trap_of_not_accepts hcode hstart (follow_of_matchAt?_nil_eq_none h)
  cases t with
  | nil => simp [hzero] at h
  | cons c t =>
    by_contra hword
    have htrap' : Trap (ofRegex r).code none (some c) places :=
      htrap.start hcode fun hboth => hword ⟨hboth.1, c, t, rfl, hboth.2⟩
    have hfalse : ((ofRegex r).follow none (some c) [(ofRegex r).start]).accepts = false :=
      accepts_of_trap htrap' (List.forall_mem_singleton.mpr hmem)
    exact Bool.false_ne_true (hfalse.symm.trans (accepts_of_matchAt?_eq_zero hzero))

end Program

/-! ### Written patterns -/

namespace Matcher

/-- The matcher of a written pattern runs the program of an expression. -/
theorem exists_regex_of_ofPattern {source : String} {m : Matcher} (h : ofPattern source = .ok m) :
    ∃ r, m = .pattern (.ofRegex r) := by
  rw [ofPattern] at h
  split at h
  · cases h
  next p hp =>
    cases h
    obtain ⟨r, -, rfl⟩ := Option.map_eq_some_iff.mp hp
    exact ⟨r, rfl⟩

/-- **Where a written pattern prefers to read nothing**, if it is not refused: only in front of a
word character, and only if its expression has a word boundary in it. -/
theorem exists_mayStopAtWord_of_ofPattern {source : String} {p : Pattern}
    (h : ofPattern source = .ok (.pattern p)) (hreads : (pattern p).canMatchEmpty = false) :
    ∃ r, p = .ofRegex r ∧ ∀ t, p.matchAt? t = some 0 → r.MayStopAtWord t := by
  obtain ⟨r, hr⟩ := exists_regex_of_ofPattern h
  cases hr
  have hnone : (Program.ofRegex r).matchAt? [] = none :=
    Option.isNone_iff_eq_none.mp (Option.isSome_eq_false_iff.mp hreads)
  exact ⟨r, rfl, fun t hzero => Program.mayStopAtWord_of_matchAt?_eq_zero hnone hzero⟩

end Matcher

end Polylex
