import Mathlib.Data.List.Induction
import Polylex.Region.Stack

/-!
# What a stack of regions does

A stack of regions is pushed to, popped from and closed, in any order and at any offsets, and it
may refuse. What one operation can do is a relation of four cases
(`Polylex.RegionStack.Performs`), and there are three reasons to refuse one
(`Polylex.RegionStack.Refuses`); everything else is an induction on a history of operations.

Two things are kept by every operation. One is about the stack as it is
(`Polylex.RegionStack.Sound`): the root is the one it was started with, it is within its limit,
and a region stands inside another one of the same name only if its grammar is reentrant. The
grammar of the outer one need not be reentrant, and two grammars of one name may differ in this.

The other one is about how the stack came to be. Every open region has been opened by a push at
which just the regions around it were open, and since then the history has never gone below it
(`Polylex.RegionStack.exists_push`). So a pop closes the region of the last push that has not
been answered by a pop, as it was opened (`Polylex.RegionStack.pop_after_iff`).
-/

namespace Polylex.RegionStack

/-- What a stack of regions is asked to do. -/
inductive Operation where
  | push (grammar : Grammar) (start : Nat) (opener : Span)
  | pop (stop : Nat)
  | closeAll (stop : Nat)

/-- What a stack of regions answers. -/
inductive Answer where
  | pushed
  | popped (r : Region)
  | closed (rs : List Region)
  | refused (e : RegionError)

/-- Whether a region has been opened. -/
def Answer.isPushed : Answer → Bool
  | pushed => true
  | _ => false

/-- Whether one region has been closed. -/
def Answer.isPopped : Answer → Bool
  | popped _ => true
  | _ => false

/-- The stack after an operation, with its answer. When it refuses it is as it was. -/
def perform (s : RegionStack) : Operation → Answer × RegionStack
  | .push g start opener =>
    match s.push g start opener with
    | .ok next => (.pushed, next)
    | .error e => (.refused e, s)
  | .pop stop =>
    match s.pop stop with
    | .ok (r, next) => (.popped r, next)
    | .error e => (.refused e, s)
  | .closeAll stop => (.closed (s.closeAll stop).1, (s.closeAll stop).2)

/-- The stack after a history of operations. -/
def after (s : RegionStack) (ops : List Operation) : RegionStack :=
  ops.foldl (fun s op => (s.perform op).2) s

/-- The answers to a history of operations. -/
def answers : RegionStack → List Operation → List Answer
  | _, [] => []
  | s, op :: ops => (s.perform op).1 :: answers (s.perform op).2 ops

/-- The open regions, innermost first. The last one is the root. -/
def regions (s : RegionStack) : List Region := s.nested ++ [s.root]

variable {s : RegionStack} {op : Operation} {ops : List Operation} {root : Region} {limit : Nat}

/-! ### One operation -/

/-- **When a stack refuses an operation**, and why. A grammar that is open and not reentrant is
refused first, whether or not there is room for a region. -/
inductive Refuses (s : RegionStack) : Operation → RegionError → Prop
  | recursive {g : Grammar} {start : Nat} {opener : Span} (once : g.reentrant = false)
      (inside : s.contains g.id = true) : Refuses s (.push g start opener) (.recursive g.id)
  | full {g : Grammar} {start : Nat} {opener : Span}
      (fresh : g.reentrant = false → s.contains g.id = false) (filled : s.limit ≤ s.depth) :
      Refuses s (.push g start opener) (.depthLimit s.limit)
  | bare {stop : Nat} (alone : s.nested = []) : Refuses s (.pop stop) (.unbalanced s.depth)

/-- **What an operation does to a stack**, with its answer. -/
inductive Performs (s : RegionStack) : Operation → Answer → RegionStack → Prop
  | pushed {g : Grammar} {start : Nat} {opener : Span}
      (fresh : g.reentrant = false → s.contains g.id = false) (room : s.depth < s.limit) :
      Performs s (.push g start opener) .pushed
        { s with nested := Region.opened g start opener :: s.nested }
  | popped {stop : Nat} {r : Region} {outer : List Region} (top : s.nested = r :: outer) :
      Performs s (.pop stop) (.popped (r.closedAt stop)) { s with nested := outer }
  | closed {stop : Nat} :
      Performs s (.closeAll stop) (.closed (s.nested.map (·.closedAt stop)))
        { s with nested := [] }
  | refused {op : Operation} {e : RegionError} (refuses : Refuses s op e) :
      Performs s op (.refused e) s

theorem Refuses.ne_closeAll {e : RegionError} (h : s.Refuses op e) (stop : Nat) :
    op ≠ .closeAll stop := by
  rcases h with _ | _ | _ <;> exact nofun

theorem performs (s : RegionStack) (op : Operation) :
    s.Performs op (s.perform op).1 (s.perform op).2 := by
  rcases op with ⟨g, start, opener⟩ | ⟨stop⟩ | ⟨stop⟩
  · have hfresh (h : ¬(!g.reentrant && s.contains g.id) = true) (hg : g.reentrant = false) :
        s.contains g.id = false := by
      simpa [hg] using h
    rw [perform, push]
    split
    next hpush =>
      split at hpush
      · cases hpush
      next hinside =>
      split at hpush
      · cases hpush
      next hroom =>
      cases hpush
      exact .pushed (hfresh hinside) (Nat.lt_of_not_le hroom)
    next hpush =>
      split at hpush
      next hinside =>
        cases hpush
        rw [Bool.and_eq_true, Bool.not_eq_true'] at hinside
        exact .refused (.recursive hinside.1 hinside.2)
      next hinside =>
      split at hpush
      next hfull =>
        cases hpush
        exact .refused (.full (hfresh hinside) hfull)
      · cases hpush
  · rw [perform, pop]
    rcases hnested : s.nested with _ | ⟨r, outer⟩
    · exact .refused (.bare hnested)
    · exact .popped hnested
  · exact .closed

/-- A stack that refuses has a reason to, and is as it was. -/
theorem perform_of_refused {e : RegionError} (h : (s.perform op).1 = .refused e) :
    s.Refuses op e ∧ (s.perform op).2 = s := by
  have hperforms := s.performs op
  rw [h] at hperforms
  generalize (s.perform op).2 = next at hperforms
  cases hperforms with
  | refused hrefuses => exact ⟨hrefuses, rfl⟩

/-- A stack that does not refuse a push has the region on its top. -/
theorem perform_of_pushed {g : Grammar} {start : Nat} {opener : Span}
    (h : (s.perform (.push g start opener)).1 = .pushed) :
    (s.perform (.push g start opener)).2 =
      { s with nested := Region.opened g start opener :: s.nested } := by
  have hperforms := s.performs (.push g start opener)
  rw [h] at hperforms
  generalize (s.perform (.push g start opener)).2 = next at hperforms
  cases hperforms
  rfl

/-- A grammar that is open and not reentrant is refused as recursive, whether or not there is
room. -/
theorem perform_push_of_inside {g : Grammar} {start : Nat} {opener : Span}
    (hg : g.reentrant = false) (hinside : s.contains g.id = true) :
    s.perform (.push g start opener) = (.refused (.recursive g.id), s) := by
  have hboth : (!g.reentrant && s.contains g.id) = true := by rw [hg, hinside]; rfl
  rw [perform, push, if_pos hboth]

/-- The innermost region is closed as it was opened. -/
theorem perform_pop_iff {stop : Nat} {r : Region} {next : RegionStack} :
    s.perform (.pop stop) = (.popped r, next) ↔
      ∃ outer r', s.nested = r' :: outer ∧ r = r'.closedAt stop ∧
        next = { s with nested := outer } := by
  rw [perform, pop]
  rcases s.nested with _ | ⟨r', outer⟩
  · exact iff_of_false nofun fun ⟨_, _, hnil, _⟩ => nomatch hnil
  · constructor
    · rintro ⟨⟩
      exact ⟨outer, r', rfl, rfl, rfl⟩
    · rintro ⟨_, _, ⟨⟩, rfl, rfl⟩
      rfl

theorem contains_iff {id : String} : s.contains id = true ↔ ∃ r ∈ s.regions, r.id = id := by
  simp only [contains, regions, Bool.or_eq_true, List.any_eq_true, beq_iff_eq, List.mem_append,
    List.mem_singleton, or_and_right, exists_or, exists_eq_left]
  exact or_comm

/-! ### Histories -/

theorem after_append (s : RegionStack) (before between : List Operation) :
    s.after (before ++ between) = (s.after before).after between :=
  List.foldl_append

theorem after_concat (s : RegionStack) (ops : List Operation) (op : Operation) :
    s.after (ops ++ [op]) = ((s.after ops).perform op).2 := after_append s ops [op]

theorem answers_append (s : RegionStack) (before between : List Operation) :
    s.answers (before ++ between) = s.answers before ++ (s.after before).answers between := by
  induction before generalizing s with
  | nil => rfl
  | cons op before ih => exact congrArg _ (ih (s.perform op).2)

/-! ### What holds of every stack -/

/-- **A stack that is in order**: it has a root and a limit, it is within the limit, and of two
regions of one name the inner one is of a reentrant grammar. -/
structure Sound (root : Region) (limit : Nat) (s : RegionStack) : Prop where
  root_eq : s.root = root
  limit_eq : s.limit = limit
  depth_le : s.depth ≤ limit
  nesting : s.regions.Pairwise fun inner outer =>
    inner.id = outer.id → inner.grammar.reentrant = true

/-- **Every operation keeps a stack in order.** -/
theorem Sound.perform (h : s.Sound root limit) (op : Operation) :
    (s.perform op).2.Sound root limit := by
  obtain ⟨hroot, hlimit, hdepth, hnesting⟩ := h
  have hperforms := s.performs op
  generalize (s.perform op).1 = answer, (s.perform op).2 = next at hperforms
  cases hperforms with
  | pushed hfresh hroom =>
    refine ⟨hroot, hlimit, hlimit ▸ hroom, ?_⟩
    refine List.pairwise_cons.mpr ⟨fun outer houter hid => ?_, hnesting⟩
    -- A grammar that is not reentrant would have been found open.
    by_contra hg
    have hinside := contains_iff.mpr ⟨outer, houter, hid.symm⟩
    exact Bool.false_ne_true ((hfresh (Bool.eq_false_iff.mpr hg)).symm.trans hinside)
  | popped htop =>
    rw [depth, htop] at hdepth
    rw [regions, htop] at hnesting
    exact ⟨hroot, hlimit, Nat.le_of_succ_le hdepth, hnesting.of_cons⟩
  | closed =>
    exact ⟨hroot, hlimit, Nat.le_trans (Nat.le_add_left 1 _) hdepth, List.pairwise_singleton _ _⟩
  | refused => exact ⟨hroot, hlimit, hdepth, hnesting⟩

theorem Sound.after (h : s.Sound root limit) (ops : List Operation) :
    (s.after ops).Sound root limit := by
  induction ops generalizing s with
  | nil => exact h
  | cons op ops ih => exact ih (h.perform op)

theorem sound_start (root : Grammar) (offset limit : Nat) :
    (start root offset limit).Sound (Region.opened root offset (Span.point offset))
      (max 1 limit) :=
  ⟨rfl, rfl, Nat.le_max_left 1 limit, List.pairwise_singleton _ _⟩

/-! ### Balanced stretches of a history -/

/-- The number of regions that a stretch of a history opens. -/
def pushes (s : RegionStack) (ops : List Operation) : Nat := (s.answers ops).countP (·.isPushed)

/-- The number of regions that a stretch of a history closes one by one. -/
def pops (s : RegionStack) (ops : List Operation) : Nat := (s.answers ops).countP (·.isPopped)

theorem pushes_concat (s : RegionStack) (ops : List Operation) (op : Operation) :
    s.pushes (ops ++ [op]) = s.pushes ops + ((s.after ops).perform op).1.isPushed.toNat := by
  rw [pushes, pushes, answers_append, List.countP_append, answers, answers, List.countP_singleton]
  cases ((s.after ops).perform op).1.isPushed <;> rfl

theorem pops_concat (s : RegionStack) (ops : List Operation) (op : Operation) :
    s.pops (ops ++ [op]) = s.pops ops + ((s.after ops).perform op).1.isPopped.toNat := by
  rw [pops, pops, answers_append, List.countP_append, answers, answers, List.countP_singleton]
  cases ((s.after ops).perform op).1.isPopped <;> rfl

/-- **A stretch of a history that stays above the stack it begins with**, and ends with some more
regions open: at no point has it closed more than it has opened. If it ends with no more regions
open it is balanced: its pushes and its pops match each other, but for those that are refused. -/
structure StaysAbove (s : RegionStack) (ops : List Operation) (more : Nat) : Prop where
  stepwise : ∀ stop, .closeAll stop ∉ ops
  prefixes : ∀ begun, begun <+: ops → s.pops begun ≤ s.pushes begun
  total : s.pushes ops = s.pops ops + more

theorem staysAbove_nil (s : RegionStack) : s.StaysAbove [] 0 :=
  ⟨fun _ => List.not_mem_nil, fun _ h => List.prefix_nil.mp h ▸ Nat.le_refl 0, rfl⟩

theorem staysAbove_concat_iff {more : Nat} :
    s.StaysAbove (ops ++ [op]) more ↔ (∀ stop, op ≠ .closeAll stop) ∧
      ∃ more', s.StaysAbove ops more' ∧ more' + ((s.after ops).perform op).1.isPushed.toNat =
        more + ((s.after ops).perform op).1.isPopped.toNat := by
  have hpushes := pushes_concat s ops op
  have hpops := pops_concat s ops op
  constructor
  · rintro ⟨hstepwise, hprefixes, htotal⟩
    have hle := hprefixes ops (List.prefix_append ops [op])
    refine ⟨?_, s.pushes ops - s.pops ops, ⟨?_, ?_, ?_⟩, ?_⟩
    · rintro stop rfl
      exact hstepwise stop (List.mem_append_right ops List.mem_cons_self)
    · exact fun stop hstop => hstepwise stop (List.mem_append_left [op] hstop)
    · exact fun begun hbegun => hprefixes begun (hbegun.trans (List.prefix_append ops [op]))
    · omega
    · omega
  · rintro ⟨hop, more', ⟨hstepwise, hprefixes, htotal⟩, hmore⟩
    have hend : s.pushes (ops ++ [op]) = s.pops (ops ++ [op]) + more := by omega
    refine ⟨fun stop hstop => ?_, fun begun hbegun => ?_, hend⟩
    · rcases List.mem_append.mp hstop with hstop | hstop
      · exact hstepwise stop hstop
      · exact hop stop (List.mem_singleton.mp hstop).symm
    · rcases List.prefix_concat_iff.mp hbegun with rfl | hbegun
      · omega
      · exact hprefixes begun hbegun

/-- **A stretch that stays above a stack leaves the stack open**, with more regions on it. -/
theorem StaysAbove.after_eq {more : Nat} (h : s.StaysAbove ops more) :
    ∃ inner, inner.length = more ∧ s.after ops = { s with nested := inner ++ s.nested } := by
  induction ops using List.reverseRecOn generalizing more with
  | nil =>
    obtain rfl : more = 0 := (Nat.zero_add more).symm.trans h.total.symm
    exact ⟨[], rfl, rfl⟩
  | append_singleton ops op ih =>
    obtain ⟨hop, more', habove, hmore⟩ := staysAbove_concat_iff.mp h
    obtain ⟨inner, rfl, hafter⟩ := ih habove
    rw [after_concat]
    have hperforms := (s.after ops).performs op
    generalize ((s.after ops).perform op).1 = answer, ((s.after ops).perform op).2 = next
      at hperforms hmore
    rw [hafter] at hperforms
    cases hperforms with
    | pushed => exact ⟨_ :: inner, hmore, rfl⟩
    | popped htop =>
      rcases inner with _ | ⟨r, inner⟩
      -- The pop would close a region of the stack that the stretch begins with.
      · exact absurd hmore (by simp [Answer.isPushed, Answer.isPopped])
      · obtain ⟨rfl, rfl⟩ := List.cons.inj htop
        exact ⟨inner, by simpa [Answer.isPushed, Answer.isPopped] using hmore, rfl⟩
    | closed => exact absurd rfl (hop _)
    | refused => exact ⟨inner, hmore, rfl⟩

/-! ### The push that opened a region -/

theorem after_eq_nested (s : RegionStack) (ops : List Operation) :
    s.after ops = { s with nested := (s.after ops).nested } := by
  induction ops using List.reverseRecOn with
  | nil => rfl
  | append_singleton ops op ih =>
    rw [after_concat]
    have hperforms := (s.after ops).performs op
    generalize ((s.after ops).perform op).1 = answer, ((s.after ops).perform op).2 = next
      at hperforms
    rw [ih] at hperforms
    cases hperforms <;> rfl

/-- **A push in a history that no pop has answered**: it has not been refused, and the history has
stayed above it since then, with some more regions open. -/
structure PendingPush (s : RegionStack) (ops before between : List Operation) (g : Grammar)
    (start : Nat) (opener : Span) (more : Nat) : Prop where
  cut : ops = before ++ .push g start opener :: between
  accepted : ((s.after before).perform (.push g start opener)).1 = .pushed
  since : (s.after (before ++ [.push g start opener])).StaysAbove between more

/-- Another operation leaves a push pending as long as the history stays above it. -/
theorem PendingPush.concat {before between : List Operation} {g : Grammar} {start more more' : Nat}
    {opener : Span} {answer : Answer} (h : s.PendingPush ops before between g start opener more)
    (hop : ∀ stop, op ≠ .closeAll stop) (hanswer : ((s.after ops).perform op).1 = answer)
    (hmore : more + answer.isPushed.toNat = more' + answer.isPopped.toNat) :
    s.PendingPush (ops ++ [op]) before (between ++ [op]) g start opener more' := by
  obtain ⟨rfl, haccepted, hsince⟩ := h
  subst hanswer
  have hafter : s.after (before ++ .push g start opener :: between) =
      (s.after (before ++ [.push g start opener])).after between := by
    rw [← after_append, List.append_assoc, List.singleton_append]
  rw [hafter] at hmore
  exact ⟨by simp, haccepted, staysAbove_concat_iff.mpr ⟨hop, more, hsince, hmore⟩⟩

/-- **Every open region has been opened by a push** that is still pending: before it just the
regions around were open, and the regions inside have been opened since then. -/
theorem exists_push (hs : s.nested = []) {inner outer : List Region} {r : Region}
    (h : (s.after ops).nested = inner ++ r :: outer) :
    ∃ before between g start opener,
      s.PendingPush ops before between g start opener inner.length ∧
        r = Region.opened g start opener ∧ (s.after before).nested = outer := by
  induction ops using List.reverseRecOn generalizing inner with
  | nil =>
    rw [after, List.foldl_nil, hs] at h
    exact absurd h.symm (List.append_ne_nil_of_right_ne_nil _ (List.cons_ne_nil _ _))
  | append_singleton ops op ih =>
    rw [after_concat] at h
    have hperforms := (s.after ops).performs op
    generalize hanswer : ((s.after ops).perform op).1 = answer, ((s.after ops).perform op).2 = next
      at hperforms h
    cases hperforms with
    | pushed =>
      rcases inner with _ | ⟨r', inner⟩
      · obtain ⟨rfl, rfl⟩ := List.cons.inj h
        exact ⟨ops, [], _, _, _, ⟨rfl, hanswer, staysAbove_nil _⟩, rfl, rfl⟩
      · obtain ⟨before, between, g, start, opener, hpush, hopened⟩ := ih (List.cons.inj h).2
        exact ⟨before, _, g, start, opener, hpush.concat nofun hanswer rfl, hopened⟩
    | popped htop =>
      have hinner : (s.after ops).nested = (_ :: inner) ++ r :: outer :=
        htop.trans (congrArg _ h)
      obtain ⟨before, between, g, start, opener, hpush, hopened⟩ := ih hinner
      exact ⟨before, _, g, start, opener, hpush.concat nofun hanswer rfl, hopened⟩
    | closed =>
      exact absurd h.symm (List.append_ne_nil_of_right_ne_nil _ (List.cons_ne_nil _ _))
    | refused hrefuses =>
      obtain ⟨before, between, g, start, opener, hpush, hopened⟩ := ih h
      exact ⟨before, _, g, start, opener, hpush.concat hrefuses.ne_closeAll hanswer rfl, hopened⟩

/-- **A pop closes the region of the push that it matches**, as it was opened, and leaves the stack
as it was before that push. -/
theorem pop_after_iff (hs : s.nested = []) {stop : Nat} {r : Region} {next : RegionStack} :
    (s.after ops).perform (.pop stop) = (.popped r, next) ↔
      ∃ before between g start opener, s.PendingPush ops before between g start opener 0 ∧
        r = ⟨g, start, some stop, opener⟩ ∧ next = s.after before := by
  rw [perform_pop_iff]
  constructor
  · rintro ⟨outer, r', htop, rfl, rfl⟩
    have hinner : (s.after ops).nested = [] ++ r' :: outer := htop
    obtain ⟨before, between, g, start, opener, hpush, rfl, rfl⟩ := exists_push hs hinner
    refine ⟨before, between, g, start, opener, hpush, rfl, ?_⟩
    rw [after_eq_nested s ops, after_eq_nested s before]
  · rintro ⟨before, between, g, start, opener, ⟨rfl, haccepted, hsince⟩, rfl, rfl⟩
    obtain ⟨inner, hinner, hafter⟩ := hsince.after_eq
    obtain rfl := List.length_eq_zero_iff.mp hinner
    rw [← after_append, List.append_assoc, List.singleton_append, after_concat,
      perform_of_pushed haccepted] at hafter
    exact ⟨_, Region.opened g start opener, by rw [hafter]; rfl, rfl, by rw [hafter]⟩

/-! ### Closing all -/

/-- **To close all regions is to pop** until only the root is left. -/
theorem answers_pops (s : RegionStack) (stop : Nat) :
    s.answers (List.replicate s.nested.length (.pop stop)) =
        s.nested.map (fun r => .popped (r.closedAt stop)) ∧
      s.after (List.replicate s.nested.length (.pop stop)) = (s.perform (.closeAll stop)).2 := by
  obtain ⟨root, nested, limit⟩ := s
  induction nested with
  | nil => exact ⟨rfl, rfl⟩
  | cons r rest ih => exact ⟨congrArg (_ :: ·) ih.1, ih.2⟩

/-! ### Any history -/

/-- **What a stack of regions does in any history**, whatever it is asked to do.

* It keeps its root, is within its limit, and nests only reentrant grammars in regions of the same
  name.
* When it refuses an operation it has a reason to, and is as it was.
* A grammar that is open and not reentrant is refused for that, even if there is no room either.
* A pop closes the region of the push that it matches, as it was opened, and leaves what was there
  before that push. It closes nothing else.
* To close all gives all open regions but the root, innermost first, as pops would give them one by
  one, and leaves the stack as it was started. -/
theorem after_start (root : Grammar) (offset limit : Nat) (ops : List Operation) :
    let base := start root offset limit
    let s := base.after ops
    (s.Sound (Region.opened root offset (Span.point offset)) (max 1 limit) ∧ 1 ≤ s.depth) ∧
    (∀ op e, (s.perform op).1 = .refused e → s.Refuses op e ∧ (s.perform op).2 = s) ∧
    (∀ g start opener, g.reentrant = false → (∃ r ∈ s.regions, r.id = g.id) →
      s.perform (.push g start opener) = (.refused (.recursive g.id), s)) ∧
    (∀ stop r next, s.perform (.pop stop) = (.popped r, next) ↔
      ∃ before between g start opener, base.PendingPush ops before between g start opener 0 ∧
        r = ⟨g, start, some stop, opener⟩ ∧ next = base.after before) ∧
    ∀ stop, ∃ inside, s.regions = inside ++ [s.root] ∧
      s.perform (.closeAll stop) = (.closed (inside.map (·.closedAt stop)), base) ∧
      s.answers (List.replicate inside.length (.pop stop)) =
        inside.map (fun r => .popped (r.closedAt stop)) := by
  intro base s
  refine ⟨⟨(sound_start root offset limit).after ops, Nat.le_add_left 1 _⟩,
    fun _ _ => perform_of_refused, ?_, fun _ _ _ => pop_after_iff rfl, ?_⟩
  · exact fun _ _ _ hg hinside => perform_push_of_inside hg (contains_iff.mpr hinside)
  · refine fun stop => ⟨s.nested, rfl, ?_, (s.answers_pops stop).1⟩
    have hs : s = { base with nested := s.nested } := after_eq_nested base ops
    rw [hs]
    rfl

/-- The case of a root that is not reentrant, with room for one more region. Another grammar of its
name is reentrant and opened; then the grammar of the root is refused for its name, although there
is no room either. -/
theorem after_start_reentrant :
    let g : Grammar := ⟨"a", [], false⟩
    let g' : Grammar := ⟨"a", [], true⟩
    let ops : List Operation :=
      [.pop 1, .push g 2 ⟨1, 2⟩, .push g' 3 ⟨2, 3⟩, .push g 4 ⟨3, 4⟩, .push g' 5 ⟨4, 5⟩]
    let base := start g 0 2
    base.answers ops = [.refused (.unbalanced 1), .refused (.recursive "a"), .pushed,
      .refused (.recursive "a"), .refused (.depthLimit 2)] ∧
    (base.after ops).perform (.pop 7) = (.popped ⟨g', 3, some 7, ⟨2, 3⟩⟩, base) ∧
    ∃ before between g'' start opener, base.PendingPush ops before between g'' start opener 0 ∧
      (⟨g', 3, some 7, ⟨2, 3⟩⟩ : Region) = ⟨g'', start, some 7, opener⟩ ∧
      base = base.after before := by
  intro g g' ops base
  obtain ⟨-, -, -, hpop, -⟩ := after_start g 0 2 ops
  have hpopped : (base.after ops).perform (.pop 7) = (.popped ⟨g', 3, some 7, ⟨2, 3⟩⟩, base) :=
    rfl
  exact ⟨rfl, hpopped, (hpop 7 _ _).mp hpopped⟩

end Polylex.RegionStack
