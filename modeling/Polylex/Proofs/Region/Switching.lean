import Polylex.Proofs.Region.Nesting
import Polylex.Proofs.Run.Regions
import Polylex.Proofs.Run.Session

/-!
# Switching to another region

A switch leaves the innermost region and then enters another one, and entering may be refused.
There are two reasons to refuse, and after leaving only one of them is left: in a run there are
never more regions open than there may be, so there is room for one more once a region has been
left. What remains is a grammar that is not reentrant and open in a region further out; then the
innermost region is left for nothing (`Polylex.Regions.Switched`). The region that is left is
not open any more when the new one is entered, so a grammar can switch to itself.

That there are never too many regions is an invariant of the stack under all its operations
(`Polylex.RegionStack.Sound`). A run changes its stack by no other means
(`Polylex.Run.exists_after_of_act`), so the invariant holds of every stack that a run comes to
(`Polylex.Session.Reaches.sound`).
-/

namespace Polylex

/-! ### The stacks that a run comes to -/

namespace Run

variable {set : GrammarSet} {stack next : RegionStack} {token : Span} {acted : List Diagnostic}

/-- Leaving a region is the pop of the stack. -/
theorem leave_eq_after (stack : RegionStack) (offset : Nat) :
    leave stack offset = stack.after [.pop offset] := by
  obtain ⟨root, nested, limit⟩ := stack
  cases nested <;> rfl

/-- Entering a region is a push, whether it is refused or not. -/
theorem exists_after_of_enter {id : String}
    (h : enter set stack id token = ⟨acted, .ok next⟩) : ∃ ops, next = stack.after ops := by
  cases hget : set.get? id with
  | none =>
    rw [enter, lookup, hget] at h
    cases h
  | some g =>
    rw [enter, lookup_eq hget, Traced.value, Traced.bind_ok] at h
    refine ⟨[.push g token.stop token], ?_⟩
    rw [RegionStack.after, List.foldl_cons, List.foldl_nil, RegionStack.perform]
    cases hpush : stack.push g token.stop token with
    | ok pushed =>
      rw [hpush] at h
      cases h
      rfl
    | error e =>
      rw [hpush] at h
      cases e with
      | unbalanced depth => exact absurd hpush (stack.push_ne_unbalanced g _ _ depth)
      | «recursive» id => cases h; rfl
      | depthLimit limit => cases h; rfl

/-- Entering the region of a known grammar does not fail, from whatever regions. -/
theorem exists_enter_eq_ok {id : String} {g : Grammar} (stack : RegionStack) (token : Span)
    (hget : set.get? id = some g) :
    ∃ acted next, enter set stack id token = ⟨acted, .ok next⟩ := by
  rw [enter, lookup_eq hget, Traced.value, Traced.bind_ok]
  cases hpush : stack.push g token.stop token with
  | ok next => exact ⟨[], next, rfl⟩
  | error e =>
    cases e with
    | unbalanced depth => exact absurd hpush (stack.push_ne_unbalanced g _ _ depth)
    | «recursive» id => exact ⟨_, stack, rfl⟩
    | depthLimit limit => exact ⟨_, stack, rfl⟩

/-- **An action changes the stack by pushes and pops alone.** -/
theorem exists_after_of_act {action : Option RegionAction}
    (h : act set stack token action = ⟨acted, .ok next⟩) : ∃ ops, next = stack.after ops := by
  rcases action with _ | id | _ | id
  · cases h
    exact ⟨[], rfl⟩
  · exact exists_after_of_enter h
  · cases h
    exact ⟨_, leave_eq_after stack token.stop⟩
  · obtain ⟨ops, rfl⟩ := exists_after_of_enter h
    refine ⟨.pop token.stop :: ops, ?_⟩
    rw [leave_eq_after, ← RegionStack.after_append]
    rfl

/-- **The stacks of a replay are in order**, if the one it begins with is. -/
theorem Replay.sound {budget stop offset limit : Nat} {t : Text} {steps : List Step}
    {final : RegionStack} {root : Region} (h : Replay set budget t stop stack offset steps final)
    (hsound : stack.Sound root limit) :
    (∀ step ∈ steps, step.stack.Sound root limit) ∧ final.Sound root limit := by
  induction h with
  | done stack => exact ⟨List.forall_mem_nil _, hsound⟩
  | token scan act rest ih =>
    obtain ⟨ops, rfl⟩ := exists_after_of_act act
    obtain ⟨hsteps, hfinal⟩ := ih (hsound.after ops)
    exact ⟨List.forall_mem_cons.mpr ⟨hsound, hsteps⟩, hfinal⟩

end Run

/-- **A stack that a run over a span comes to**: the one in front of one of its tokens, or the
one at its end. -/
def Session.Reaches (s : Session) (t : Text) (root : Grammar) (span : Span) (depth : Nat)
    (stack : RegionStack) : Prop :=
  ∃ steps final, Run.Replay s.grammars (s.options.maxInterpolationDepth - depth) t span.stop
      (RegionStack.start root span.start s.options.maxRegionDepth) span.start steps final ∧
    (stack = final ∨ ∃ step ∈ steps, stack = step.stack)

theorem Session.Reaches.sound {s : Session} {t : Text} {root : Grammar} {span : Span} {depth : Nat}
    {stack : RegionStack} (h : s.Reaches t root span depth stack) :
    ∃ region limit, stack.Sound region limit := by
  obtain ⟨steps, final, hreplay, hstack⟩ := h
  obtain ⟨hsteps, hfinal⟩ :=
    hreplay.sound (RegionStack.sound_start root span.start s.options.maxRegionDepth)
  rcases hstack with rfl | ⟨step, hstep, rfl⟩
  · exact ⟨_, _, hfinal⟩
  · exact ⟨_, _, hsteps step hstep⟩

/-! ### The switch -/

namespace Regions

/-- **What a switch does inside a region**: what is reported, and the stack afterwards. The
regions below the top stay as they are. -/
inductive Switched (set : GrammarSet) (id : String) (token : Span) (stack : RegionStack) :
    List Diagnostic → RegionStack → Prop
  /-- The top is replaced by a region of the grammar, which starts behind the token. -/
  | replaced {g : Grammar} {top : Region} {below : List Region} (known : set.get? id = some g)
      (inside : stack.nested = top :: below)
      (free : ¬(g.reentrant = false ∧ ∃ r ∈ below ++ [stack.root], r.id = id)) :
      Switched set id token stack []
        { stack with nested := Region.opened g token.stop token :: below }
  /-- The grammar is open below the top already, and may not be open twice: the top is removed,
  and that is reported. -/
  | removed {g : Grammar} {top : Region} {below : List Region} (known : set.get? id = some g)
      (inside : stack.nested = top :: below) (once : g.reentrant = false)
      (active : ∃ r ∈ below ++ [stack.root], r.id = id) :
      Switched set id token stack
        [alreadyActive id ({ stack with nested := below } : RegionStack).current.id token]
        { stack with nested := below }

variable {set : GrammarSet} {id : String} {token : Span} {stack : RegionStack} {g : Grammar}

/-- **A switch inside a region** of a stack within its limit. -/
theorem exists_switched {root : Region} {limit : Nat} (hsound : stack.Sound root limit)
    (hget : set.get? id = some g) {top : Region} {below : List Region}
    (hinside : stack.nested = top :: below) :
    ∃ acted next, Run.act set stack token (some (.switch id)) = ⟨acted, .ok next⟩ ∧
      Switched set id token stack acted next := by
  have hid := GrammarSet.id_of_get? hget
  have hleave : Run.leave stack token.stop = { stack with nested := below } := by
    rw [Run.leave, RegionStack.pop, hinside]
  -- Leaving the top makes room, so the limit is no reason to refuse.
  have hroom : ¬stack.limit ≤ ({ stack with nested := below } : RegionStack).depth := by
    have hdepth := hsound.depth_le
    rw [RegionStack.depth, hinside, List.length_cons] at hdepth
    rw [hsound.limit_eq]
    show ¬limit ≤ below.length + 1
    omega
  rw [Run.act, hleave, Run.enter, Run.lookup_eq hget, Traced.value, Traced.bind_ok,
    RegionStack.push, hid, if_neg hroom]
  by_cases hactive :
      (!g.reentrant && ({ stack with nested := below } : RegionStack).contains id) = true
  · rw [if_pos hactive]
    rw [Bool.and_eq_true, Bool.not_eq_true', RegionStack.contains_iff] at hactive
    exact ⟨_, _, rfl, .removed hget hinside hactive.1 hactive.2⟩
  · rw [if_neg hactive]
    rw [Bool.and_eq_true, Bool.not_eq_true', RegionStack.contains_iff] at hactive
    exact ⟨[], _, rfl, .replaced hget hinside hactive⟩

theorem Switched.code_ne {acted : List Diagnostic} {next : RegionStack}
    (h : Switched set id token stack acted next) : ∀ d ∈ acted, d.code ≠ .nestingLimit := by
  cases h with
  | replaced => exact nofun
  | removed => exact List.forall_mem_singleton.mpr nofun

theorem Switched.depth_eq {acted : List Diagnostic} {next : RegionStack}
    (h : Switched set id token stack acted next) :
    stack.depth = next.depth + acted.length := by
  cases h with
  | replaced known inside free => rw [RegionStack.depth, inside]; rfl
  | removed known inside once active => rw [RegionStack.depth, inside]; rfl

end Regions

/-! ### The switches of a run -/

namespace Session

variable {s : Session} {t : Text} {root : Grammar} {span : Span} {depth : Nat}
variable {stack : RegionStack}

/-- An action that does not fail appends what it reports to the reports of the session. -/
theorem run_act (s : Session) {stack next : RegionStack} {token : Span}
    {action : Option RegionAction} {acted : List Diagnostic}
    (h : Run.act s.grammars stack token action = ⟨acted, .ok next⟩) :
    (SessionM.act stack token action).run.run s =
      (.ok next, { s with diagnostics := s.diagnostics ++ acted }) := by
  have htraces : SessionM.Traces s (SessionM.act stack token action)
      (Run.act s.grammars stack token action) := SessionM.traces_act token action
  rw [h] at htraces
  exact htraces s.diagnostics

/-- **What a switch does in a run.** Take a set that has been built, and a stack that some run
comes to, over any span of a text, from any root and at any depth. The grammars that the rules of
the set switch to are in the set; and a switch to a grammar of the set never fails. In the session
it changes nothing but the reports.

* Inside a region it replaces the top or removes it. It removes it exactly when the grammar is
  not reentrant and open below, and then that is the one thing it reports; it never reports that
  there are too many regions.
* At the root it is the same as entering. -/
theorem switch_in_run {grammars : List Grammar} (hbuild : GrammarSet.build grammars = .ok s.grammars)
    (hreaches : s.Reaches t root span depth stack) :
    (∀ g ∈ s.grammars.grammars, ∀ r ∈ g.rules, ∀ id, r.action = some (.switch id) →
      s.grammars.contains id = true) ∧
    ∀ id, s.grammars.contains id = true → ∀ token, ∃ acted next,
      Run.act s.grammars stack token (some (.switch id)) = ⟨acted, .ok next⟩ ∧
      (SessionM.act stack token (some (.switch id))).run.run s =
        (.ok next, { s with diagnostics := s.diagnostics ++ acted }) ∧
      (stack.nested ≠ [] → Regions.Switched s.grammars id token stack acted next ∧
        stack.depth = next.depth + acted.length ∧ ∀ d ∈ acted, d.code ≠ .nestingLimit) ∧
      (stack.nested = [] → Run.act s.grammars stack token (some (.enter id)) =
        ⟨acted, .ok next⟩) := by
  obtain ⟨region, limit, hsound⟩ := hreaches.sound
  refine ⟨fun g hg r hr id hswitch => ?_, fun id hid token => ?_⟩
  · refine (GrammarSet.valid_of_build hbuild g hg r hr).target id ?_
    rw [Rule.target, hswitch]
    rfl
  · obtain ⟨g, hget⟩ := GrammarSet.exists_get? hid
    rcases hnested : stack.nested with _ | ⟨top, below⟩
    -- There is nothing to leave at the root.
    · have hroot : Run.act s.grammars stack token (some (.switch id)) =
          Run.act s.grammars stack token (some (.enter id)) := by
        rw [Run.act, Run.act, Run.leave, RegionStack.pop, hnested]
      obtain ⟨acted, next, hact⟩ := Run.exists_enter_eq_ok stack token hget
      exact ⟨acted, next, hroot.trans hact, s.run_act (hroot.trans hact), fun hne => absurd rfl hne, fun _ => hact⟩
    · obtain ⟨acted, next, hact, hswitched⟩ := Regions.exists_switched hsound hget hnested
      exact ⟨acted, next, hact, s.run_act hact, fun _ => ⟨hswitched, hswitched.depth_eq, hswitched.code_ne⟩,
        fun hnil => absurd hnil (List.cons_ne_nil top below)⟩

/-- The case of a run that has entered a region of a grammar that is not reentrant, from a root
that is not reentrant either. The grammar in force can be switched to, which replaces the region;
the grammar of the root cannot, and the region is left. -/
theorem switch_in_run_twice :
    let a : Grammar := ⟨"a", [⟨.punctuation, .literal ['('], some (.enter "b")⟩], false⟩
    let b : Grammar := ⟨"b", [⟨.punctuation, .literal ['|'], some (.switch "b")⟩,
      ⟨.punctuation, .literal [')'], some (.switch "a")⟩], false⟩
    let s : Session := { grammars := ⟨[a, b]⟩ }
    let stack : RegionStack :=
      { RegionStack.start a 0 64 with nested := [Region.opened b 1 ⟨0, 1⟩] }
    GrammarSet.build [a, b] = .ok s.grammars ∧ s.Reaches ['('] a ⟨0, 1⟩ 0 stack ∧
      (∃ acted next, Run.act s.grammars stack ⟨1, 2⟩ (some (.switch "b")) = ⟨acted, .ok next⟩ ∧
        Regions.Switched s.grammars "b" ⟨1, 2⟩ stack acted next ∧ next.depth = 2) ∧
      ∃ acted next, Run.act s.grammars stack ⟨1, 2⟩ (some (.switch "a")) = ⟨acted, .ok next⟩ ∧
        Regions.Switched s.grammars "a" ⟨1, 2⟩ stack acted next ∧ next.depth = 1 := by
  intro a b s stack
  have hbuild : GrammarSet.build [a, b] = .ok s.grammars := rfl
  have hreaches : s.Reaches ['('] a ⟨0, 1⟩ 0 stack :=
    ⟨_, stack, .token rfl rfl (.done stack), Or.inl rfl⟩
  obtain ⟨-, hswitch⟩ := switch_in_run hbuild hreaches
  obtain ⟨acted, next, hact, -, hinside, -⟩ := hswitch "b" rfl ⟨1, 2⟩
  obtain ⟨acted', next', hact', -, hinside', -⟩ := hswitch "a" rfl ⟨1, 2⟩
  refine ⟨hbuild, hreaches, ⟨acted, next, hact, (hinside nofun).1, ?_⟩,
    acted', next', hact', (hinside' nofun).1, ?_⟩
  · cases hact
    rfl
  · cases hact'
    rfl

end Session

end Polylex
