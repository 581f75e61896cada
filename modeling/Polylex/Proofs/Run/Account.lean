import Mathlib.Tactic.Choose
import Polylex.Proofs.Run.Depth
import Polylex.Proofs.Run.Regions

/-!
# An account of a text that one grammar reads

If no more than one region may be open, no region is ever entered: the root is open from the
start. Then the grammar of a text, or of an expression, reads all of it, and the action of a token
does nothing but be refused. What is left of a run is told by an *account*
(`Polylex.Run.Accounts`): the tokens, and a log of what happens in order. There are two kinds of
entries. Something is reported about a literal; or a token is finished, behind everything that is
inside it, and its action is refused with a report, or has nothing to be refused.

An account knows of no stack and of no loop. It is a relation, and two things make it useful. A
text has an account with every grammar of a valid set (`Polylex.Run.exists_accounts`). And a run
with room for one region returns the tokens of any account of its text and reports what the log
says (`Polylex.Run.forest_eq_of_accounts`).
-/

namespace Polylex.Run

open Token

/-! ### Refused actions -/

/-- **How an action is refused** if only the root is open and there is room for no other region:
what is reported about the token. Leaving the root and doing nothing is not reported. -/
inductive Refused (set : GrammarSet) (root : Grammar) (token : Span) :
    Option RegionAction → List Diagnostic → Prop
  | nothing : Refused set root token none []
  | exit : Refused set root token (some .exit) []
  /-- The grammar is the one of the root, and may not be open twice. -/
  | alreadyActive {action : RegionAction} {id : String} {g : Grammar}
      (target : action.target = some id) (known : set.get? id = some g)
      (once : g.reentrant = false) (active : root.id = id) :
      Refused set root token (some action) [Regions.alreadyActive id root.id token]
  /-- There is no room for another region. -/
  | full {action : RegionAction} {id : String} {g : Grammar} (target : action.target = some id)
      (known : set.get? id = some g) (free : ¬(g.reentrant = false ∧ root.id = id)) :
      Refused set root token (some action) [Regions.tooManyRegions 1 id token]

section Refused

variable {set : GrammarSet} {root : Grammar} {token : Span} {action : Option RegionAction}
variable {refused : List Diagnostic} {limit : Nat}

theorem exists_refused (root : Grammar) (token : Span)
    (hknown : ∀ id, action.bind (·.target) = some id → ∃ g, set.get? id = some g) :
    ∃ refused, Refused set root token action refused := by
  rcases action with _ | action
  · exact ⟨[], .nothing⟩
  · rcases htarget : action.target with _ | id
    · obtain rfl : action = .exit := by
        cases action with
        | exit => rfl
        | enter id => cases htarget
        | switch id => cases htarget
      exact ⟨[], .exit⟩
    · obtain ⟨g, hget⟩ := hknown id htarget
      by_cases hactive : g.reentrant = false ∧ root.id = id
      · exact ⟨_, .alreadyActive htarget hget hactive.1 hactive.2⟩
      · exact ⟨_, .full htarget hget hactive⟩

/-- Entering a region from the root is refused if there is room for one region only. -/
theorem enter_start {id : String} {g : Grammar} (hlimit : limit ≤ 1) (start : Nat)
    (hget : set.get? id = some g) :
    enter set (RegionStack.start root start limit) id token =
      ⟨[if g.reentrant = false ∧ root.id = id then Regions.alreadyActive id root.id token
        else Regions.tooManyRegions 1 id token], .ok (RegionStack.start root start limit)⟩ := by
  have hone : max 1 limit = 1 := Nat.max_eq_left hlimit
  obtain ⟨pushed, ds, next, henters, heq⟩ :=
    Regions.exists_enters root start limit [] hget token
  rw [← Regions.toStack_nil, heq]
  cases henters with
  | accepted _ _ hroom =>
    rw [hone] at hroom
    exact absurd hroom (Nat.lt_irrefl 1)
  | alreadyActive hget' honce hactive =>
    obtain rfl := Option.some.inj (hget.symm.trans hget')
    rw [if_pos ⟨honce, (List.mem_singleton.mp hactive).symm⟩]
    rfl
  | full hget' hfree _ =>
    obtain rfl := Option.some.inj (hget.symm.trans hget')
    have hfree' : ¬(g.reentrant = false ∧ root.id = id) := by
      rintro ⟨honce, rfl⟩
      rcases hfree with hreentrant | hfree
      · rw [honce] at hreentrant
        cases hreentrant
      · exact hfree (List.mem_singleton.mpr rfl)
    rw [if_neg hfree', hone]

/-- **An action is refused, and the root stays the only region.** -/
theorem Refused.act_eq (h : Refused set root token action refused) (hlimit : limit ≤ 1)
    (start : Nat) :
    act set (RegionStack.start root start limit) token action =
      ⟨refused, .ok (RegionStack.start root start limit)⟩ := by
  -- Leaving the root changes nothing, so a switch is refused as entering is.
  have henter {action : RegionAction} {id : String} (htarget : action.target = some id) :
      act set (RegionStack.start root start limit) token (some action) =
        enter set (RegionStack.start root start limit) id token := by
    cases action <;> cases htarget <;> rfl
  cases h with
  | nothing => rfl
  | exit => rfl
  | alreadyActive htarget hget honce hactive =>
    rw [henter htarget, enter_start hlimit start hget, if_pos ⟨honce, hactive⟩]
  | full htarget hget hfree =>
    rw [henter htarget, enter_start hlimit start hget, if_neg hfree]

/-- An action that enters a region is refused with one report, and any other with none. -/
theorem Refused.reports_once (h : Refused set root token action refused) :
    (∀ id, action.bind (·.target) = some id →
      ∃ d, refused = [d] ∧ d.span = token ∧
        (d.code = .recursiveRegion ∨ d.code = .nestingLimit)) ∧
    (action.bind (·.target) = none → refused = []) := by
  cases h with
  | nothing => exact ⟨nofun, fun _ => rfl⟩
  | exit => exact ⟨nofun, fun _ => rfl⟩
  | alreadyActive htarget =>
    exact ⟨fun _ _ => ⟨_, rfl, rfl, Or.inl rfl⟩, fun hnone => nomatch htarget.symm.trans hnone⟩
  | full htarget =>
    exact ⟨fun _ _ => ⟨_, rfl, rfl, Or.inr rfl⟩, fun hnone => nomatch htarget.symm.trans hnone⟩

end Refused

/-! ### Accounts -/

/-- An entry of the log of a run. -/
inductive Entry where
  /-- Something is reported about a literal. -/
  | reported (d : Diagnostic)
  /-- A token is finished, and its action is refused with some reports. -/
  | finished (token : RawToken) (refused : List Diagnostic)

/-- What an entry reports. -/
def Entry.reports : Entry → List Diagnostic
  | reported d => [d]
  | finished _ refused => refused

/-- What an entry reports if actions are left out. -/
def Entry.ownReports : Entry → List Diagnostic
  | reported d => [d]
  | finished _ _ => []

/-- The tree of a token, given the tokens of the expressions of its zones. -/
def tree (raw : RawToken) (inner : Zone → List Token) : Token :=
  .node raw.kind raw.span
    (if raw.zones.isEmpty then []
      else interleave raw.kind raw.span.stop inner raw.span.start raw.zones)

/-- **An account of a text** at an offset that one grammar reads, with some levels of embedding:
its tokens, and a log. The text falls into what the tokens read, one after the other, each of them
the one that the grammar finds first; the expressions of its zones have accounts of their own,
with one level less. -/
inductive Accounts (set : GrammarSet) :
    (budget : Nat) → (host : Grammar) → (offset : Nat) → Text → List Token → List Entry → Prop
  | done {budget offset : Nat} {host : Grammar} : Accounts set budget host offset [] [] []
  | token {budget offset : Nat} {host : Grammar} {p r : Text} {found : Match} {raw : RawToken}
      {grammar : Zone → Grammar} {inner : Zone → List Token} {logs : Zone → List Entry}
      {refused : List Diagnostic} {tokens : List Token} {log : List Entry}
      (first : host.firstMatch budget offset (p ++ r) = found)
      (raw_eq : RawToken.ofMatch found offset (p ++ r) = raw)
      (reads : p ≠ []) (length : p.length = found.length)
      (named : ∀ z ∈ raw.zones, z.grammar = none ∧ grammar z = host ∨
        ∃ id, z.grammar = some id ∧ set.get? id = some (grammar z))
      (zones : ∀ z ∈ raw.zones,
        Accounts set (budget - 1) (grammar z) z.bodyStart z.body (inner z) (logs z))
      (refusal : Refused set host raw.span raw.action refused)
      (rest : Accounts set budget host (offset + p.width) r tokens log) :
      Accounts set budget host offset (p ++ r) (tree raw inner :: tokens)
        (found.diagnostics.map .reported ++ raw.zones.flatMap logs ++
          .finished raw refused :: log)

variable {set : GrammarSet} {budget offset limit : Nat} {host : Grammar} {m : Text}
variable {tokens : List Token} {log : List Entry}

/-- The expressions of some zones have accounts, each in its grammar, if every grammar of the set
has one of every zone. -/
theorem exists_zone_accounts {zones : List Zone} (hhost : host ∈ set.grammars)
    (hknown : ∀ z ∈ zones, ∀ id, z.grammar = some id → ∃ g, set.get? id = some g)
    (haccounts : ∀ z ∈ zones, ∀ g ∈ set.grammars,
      ∃ tokens log, Accounts set budget g z.bodyStart z.body tokens log) :
    ∃ (grammar : Zone → Grammar) (inner : Zone → List Token) (logs : Zone → List Entry),
      ∀ z ∈ zones,
        (z.grammar = none ∧ grammar z = host ∨
          ∃ id, z.grammar = some id ∧ set.get? id = some (grammar z)) ∧
        Accounts set budget (grammar z) z.bodyStart z.body (inner z) (logs z) := by
  have hzone (z : Zone) : ∃ (g : Grammar) (inner : List Token) (log : List Entry),
      z ∈ zones →
        (z.grammar = none ∧ g = host ∨ ∃ id, z.grammar = some id ∧ set.get? id = some g) ∧
        Accounts set budget g z.bodyStart z.body inner log := by
    by_cases hz : z ∈ zones
    · obtain ⟨g, hg, hnamed⟩ := exists_zone_grammar hhost (hknown z hz)
      obtain ⟨inner, log, h⟩ := haccounts z hz g hg
      exact ⟨g, inner, log, fun _ => ⟨hnamed, h⟩⟩
    · exact ⟨host, [], [], fun hz' => absurd hz' hz⟩
  choose grammar inner logs hzones using hzone
  exact ⟨grammar, inner, logs, hzones⟩

/-- **A text has an account** with every grammar of a valid set. -/
theorem exists_accounts (hs : set.Valid) (hhost : host ∈ set.grammars) (budget offset : Nat)
    (m : Text) : ∃ tokens log, Accounts set budget host offset m tokens log := by
  -- An expression has less budget, and what is behind a token is shorter.
  induction budget using Nat.strongRecOn generalizing host offset m with
  | ind budget ihbudget =>
  induction hn : m.length using Nat.strongRecOn generalizing offset m with
  | ind n ihlength =>
    by_cases hne : m = []
    · subst hne
      exact ⟨[], [], .done⟩
    have hfits : (host.firstMatch budget offset m).Fits host.rules budget offset m :=
      hs.fits_firstMatch hhost hne
    generalize hfound : host.firstMatch budget offset m = found at hfits
    obtain ⟨grammar, inner, logs, hzones⟩ :=
      exists_zone_accounts hhost (fun z hz id => hfits.known_of_mem_zones hs hhost hz)
        fun z hz g hg =>
          ihbudget (budget - 1) (Nat.sub_lt (hfits.forms z hz).1 Nat.one_pos) hg z.bodyStart z.body
    have hknown : ∀ id, (RawToken.ofMatch found offset m).action.bind (·.target) = some id →
        ∃ g, set.get? id = some g := fun id hid => hfits.known_of_target hs hhost hid
    obtain ⟨refused, hrefused⟩ :=
      exists_refused host (RawToken.ofMatch found offset m).span hknown
    have hshorter : (m.drop found.length).length < n := by
      have hpos := hfits.length_pos
      have hle := hfits.length_le
      rw [List.length_drop]
      omega
    obtain ⟨tokens, log, hrest⟩ := ihlength _ hshorter
      (offset + Text.width (m.take found.length)) (m.drop found.length) rfl
    have hcut : m.take found.length ++ m.drop found.length = m := List.take_append_drop _ _
    have htoken := Accounts.token (by rw [hcut, hfound]) (by rw [hcut]) hfits.take_ne_nil
      hfits.length_take (fun z hz => (hzones z hz).1) (fun z hz => (hzones z hz).2) hrefused hrest
    rw [hcut] at htoken
    exact ⟨_, _, htoken⟩

/-- Every token in the log has had its action refused by the grammar that has read it. -/
theorem Accounts.refused_of_mem (h : Accounts set budget host offset m tokens log)
    {raw : RawToken} {refused : List Diagnostic} (hmem : .finished raw refused ∈ log) :
    ∃ g, Refused set g raw.span raw.action refused := by
  induction h with
  | done => cases hmem
  | token _ _ _ _ _ _ refusal _ ihzones ihrest =>
    rcases List.mem_append.mp hmem with hmem | hmem
    · rcases List.mem_append.mp hmem with hmem | hmem
      · obtain ⟨d, -, heq⟩ := List.mem_map.mp hmem
        cases heq
      · obtain ⟨z, hz, hmem⟩ := List.mem_flatMap.mp hmem
        exact ihzones z hz hmem
    · rcases List.mem_cons.mp hmem with heq | hmem
      · cases heq
        exact ⟨_, refusal⟩
      · exact ihrest hmem

/-! ### Runs with room for one region -/

/-- The expression of a zone, if its run is known. -/
theorem expressionTokens_below {z : Zone} {grammar : Grammar} {ds : List Diagnostic}
    {inner : List Token} (hpos : 0 < budget)
    (hnamed : z.grammar = none ∧ grammar = host ∨
      ∃ id, z.grammar = some id ∧ set.get? id = some grammar)
    (hrun : forest set limit (budget - 1) false grammar z.bodyStart z.body = ⟨ds, .ok inner⟩) :
    expressionTokens set (below set limit budget) host z = ⟨ds, .ok inner⟩ := by
  by_cases hne : z.body = []
  -- An expression without text is not run, but its run would come to the same.
  · rw [hne, forest_eq] at hrun
    rw [expressionTokens, hne]
    exact hrun
  · obtain ⟨budget, rfl⟩ := Nat.exists_eq_add_one.mpr hpos
    exact (expressionTokens_eq hne hnamed).trans hrun

/-- **A run with room for one region follows every account**: it returns its tokens, and it
reports what the log says. -/
theorem forestFrom_eq_of_accounts (h : Accounts set budget host offset m tokens log)
    (hlimit : limit ≤ 1) (start : Nat) :
    forestFrom set budget (below set limit budget) false 0 (RegionStack.start host start limit)
      offset m = ⟨log.flatMap Entry.reports, .ok tokens⟩ := by
  induction h generalizing start with
  | done => rfl
  | @token budget offset host p r found raw grammar inner logs refused tokens log first raw_eq
      reads length named zones refusal rest ihzones ihrest =>
    have hpos {z : Zone} (hz : z ∈ raw.zones) : 0 < budget := by
      rcases Nat.eq_zero_or_pos budget with rfl | hpos
      · rw [← raw_eq, RawToken.ofMatch, ← first, host.zones_firstMatch_zero] at hz
        cases hz
      · exact hpos
    have hinner : ∀ z ∈ raw.zones, expressionTokens set (below set limit budget) host z =
        ⟨(logs z).flatMap Entry.reports, .ok (inner z)⟩ := by
      intro z hz
      refine expressionTokens_below (hpos hz) (named z hz) ?_
      rw [forest_eq]
      exact ihzones z hz z.bodyStart
    have hzones : raw.zones.flatMap
        (fun z => (expressionTokens set (below set limit budget) host z).diagnostics) =
        raw.zones.flatMap fun z => (logs z).flatMap Entry.reports :=
      List.flatMap_congr fun z hz => by rw [hinner z hz]
    have hsplice : splice set (below set limit budget) host raw =
        ⟨raw.zones.flatMap fun z => (logs z).flatMap Entry.reports, .ok (tree raw inner)⟩ := by
      rw [splice_eq fun z hz => by rw [hinner z hz], hzones]
      rfl
    have hfound : (found.diagnostics.map Entry.reported).flatMap Entry.reports =
        found.diagnostics := by
      rw [List.flatMap_map]
      exact List.flatMap_singleton' _
    have hcurrent : (RegionStack.start host start limit).current = host := rfl
    rw [← hcurrent] at first
    rw [forestFrom_step reads first length, raw_eq]
    dsimp only
    rw [hcurrent, hsplice, refusal.act_eq hlimit start]
    simp only [Traced.report, Traced.bind_ok, Traced.pure_eq, ihrest start, List.flatMap_append,
      List.flatMap_cons, List.flatMap_assoc, hfound, Entry.reports, List.append_nil,
      List.append_assoc]

/-- **A run with room for one region**, of a whole text or of an expression. -/
theorem forest_eq_of_accounts (h : Accounts set budget host offset m tokens log)
    (hlimit : limit ≤ 1) :
    forest set limit budget false host offset m = ⟨log.flatMap Entry.reports, .ok tokens⟩ := by
  rw [forest_eq]
  exact forestFrom_eq_of_accounts h hlimit offset

end Polylex.Run
