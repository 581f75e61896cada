import Polylex.Proofs.Run.Account
import Polylex.Proofs.Run.History

/-!
# Actions that are all refused

What do actions do if no more than one region may be open? The root is open already, so every
action is refused, or it has nothing to do. It could still leave its mark, for after a token
with an action the regions are looked at anew, and a report may come to stand between others.

The mark is a report about the token, and nothing else. Take away the actions of all rules
(`Polylex.GrammarSet.withoutActions`): the set can still be built, and a session returns the
same tokens or the same error. Its reports are those of the session with the actions, without
the reports about refused ones (`Polylex.Session.run_withoutActions`).

The two runs are not compared with each other. The text has an account
(`Polylex.Run.Accounts`), which both of them follow; in the account that the second one follows
no action is left to be refused (`Polylex.Run.Accounts.withoutActions`).
-/

namespace Polylex

/-! ### Taking actions away -/

/-- The rule without its action. -/
def Rule.withoutAction (r : Rule) : Rule := { r with action := none }

/-- The grammar with the actions of its rules taken away. -/
def Grammar.withoutActions (g : Grammar) : Grammar :=
  { g with rules := g.rules.map (·.withoutAction) }

/-- The set with the actions of all rules taken away. -/
def GrammarSet.withoutActions (s : GrammarSet) : GrammarSet := ⟨s.grammars.map (·.withoutActions)⟩

/-- The session over the set without actions. -/
def Session.withoutActions (s : Session) : Session :=
  { s with grammars := s.grammars.withoutActions }

/-- The token of a rule without its action. -/
def Match.withoutAction (m : Match) : Match := { m with action := none }

/-- The token without an action. -/
def RawToken.withoutAction (raw : RawToken) : RawToken := { raw with action := none }

section Matching

variable {budget offset : Nat} {t : Text}

theorem Rule.match?_withoutAction (r : Rule) (index : Nat) (literals : List Delimited) :
    r.withoutAction.match? index literals budget offset t =
      (r.match? index literals budget offset t).map Match.withoutAction := by
  have hmatcher : r.withoutAction.matcher = r.matcher := rfl
  rw [match?_eq, match?_eq, hmatcher]
  rcases r.matcher.match? literals budget offset t with _ | found
  · rfl
  · dsimp only
    split <;> rfl

theorem Grammar.firstOf_withoutAction (literals : List Delimited) (index : Nat)
    (rules : List Rule) :
    firstOf literals budget offset t index (rules.map (·.withoutAction)) =
      (firstOf literals budget offset t index rules).map Match.withoutAction := by
  induction rules generalizing index with
  | nil => rfl
  | cons r rest ih =>
    rw [List.map_cons, firstOf_cons, firstOf_cons, Rule.match?_withoutAction]
    rcases r.match? index literals budget offset t with _ | found
    · exact ih (index + 1)
    · rfl

theorem Grammar.literals_withoutActions (g : Grammar) : g.withoutActions.literals = g.literals := by
  rw [literals, literals, withoutActions, List.filterMap_map]
  rfl

/-- **Without actions a grammar finds the same token**, without its action. -/
theorem Grammar.firstMatch_withoutActions (g : Grammar) :
    g.withoutActions.firstMatch budget offset t = (g.firstMatch budget offset t).withoutAction := by
  rw [firstMatch_eq, firstMatch_eq, literals_withoutActions]
  have hfirst : firstOf g.literals budget offset t 0 g.withoutActions.rules =
      (firstOf g.literals budget offset t 0 g.rules).map Match.withoutAction :=
    firstOf_withoutAction g.literals 0 g.rules
  rw [hfirst]
  rcases firstOf g.literals budget offset t 0 g.rules with _ | found <;> rfl

end Matching

/-! ### Sets without actions -/

namespace GrammarSet

variable {s : GrammarSet} {grammars : List Grammar}

theorem get?_withoutActions (s : GrammarSet) (id : String) :
    s.withoutActions.get? id = (s.get? id).map (·.withoutActions) :=
  List.find?_map ..

theorem contains_withoutActions (s : GrammarSet) : s.withoutActions.contains = s.contains := by
  funext id
  exact List.any_map ..

theorem firstRepeated?_withoutActions (seen : List String) (grammars : List Grammar) :
    firstRepeated? seen (grammars.map (·.withoutActions)) = firstRepeated? seen grammars := by
  induction grammars generalizing seen with
  | nil => rfl
  | cons g rest ih =>
    have hid : g.withoutActions.id = g.id := rfl
    rw [List.map_cons, firstRepeated?, firstRepeated?, hid, ih]

/-- A rule without its action is as usable as it was: it names fewer grammars. -/
theorem Valid.withoutActions (hs : s.Valid) : s.withoutActions.Valid := by
  rw [Valid, contains_withoutActions]
  intro bare hbare rule hrule
  obtain ⟨g, hg, rfl⟩ := List.mem_map.mp hbare
  obtain ⟨r, hr, rfl⟩ := List.mem_map.mp hrule
  obtain ⟨hreads, -, hforms, hflags⟩ := hs g hg r hr
  exact ⟨hreads, nofun, hforms, hflags⟩

/-- **A set that can be built can be built without actions.** -/
theorem build_withoutActions (h : build grammars = .ok s) :
    build (grammars.map (·.withoutActions)) = .ok s.withoutActions := by
  obtain ⟨hnone, rfl, hvalid⟩ := build_eq_ok_iff.mp h
  exact build_eq_ok_iff.mpr
    ⟨(firstRepeated?_withoutActions [] grammars).trans hnone, rfl, hvalid.withoutActions⟩

end GrammarSet

/-! ### Accounts without actions -/

namespace Run

open Token

variable {set : GrammarSet} {budget offset : Nat} {host : Grammar} {m : Text}
variable {tokens : List Token} {log : List Entry}

/-- The entry with the action of a finished token taken away, so that nothing is refused. -/
def Entry.withoutAction : Entry → Entry
  | reported d => reported d
  | finished raw _ => finished raw.withoutAction []

theorem reports_withoutAction (log : List Entry) :
    (log.map Entry.withoutAction).flatMap Entry.reports = log.flatMap Entry.ownReports := by
  rw [List.flatMap_map]
  refine List.flatMap_congr fun e _ => ?_
  cases e <;> rfl

/-- **An account is one of the same text without actions**: the tokens are the same, and in the
log no action is left to be refused. -/
theorem Accounts.withoutActions (h : Accounts set budget host offset m tokens log) :
    Accounts set.withoutActions budget host.withoutActions offset m tokens
      (log.map Entry.withoutAction) := by
  induction h with
  | done => exact .done
  | @token budget offset host p r found raw grammar inner logs refused tokens log first raw_eq
      reads length named _ _ _ ihzones ihrest =>
    have hlog : (found.diagnostics.map Entry.reported ++ raw.zones.flatMap logs ++
          .finished raw refused :: log).map Entry.withoutAction =
        found.withoutAction.diagnostics.map Entry.reported ++
          raw.withoutAction.zones.flatMap (fun z => (logs z).map Entry.withoutAction) ++
            .finished raw.withoutAction [] :: log.map Entry.withoutAction := by
      rw [List.map_append, List.map_append, List.map_map, List.map_flatMap]
      rfl
    have hnamed : ∀ z ∈ raw.withoutAction.zones,
        z.grammar = none ∧ (grammar z).withoutActions = host.withoutActions ∨
          ∃ id, z.grammar = some id ∧
            set.withoutActions.get? id = some (grammar z).withoutActions := by
      intro z hz
      rcases named z hz with ⟨hnone, heq⟩ | ⟨id, hid, hget⟩
      · exact Or.inl ⟨hnone, congrArg Grammar.withoutActions heq⟩
      · refine Or.inr ⟨id, hid, ?_⟩
        rw [GrammarSet.get?_withoutActions, hget]
        rfl
    rw [hlog]
    have hfirst : host.withoutActions.firstMatch budget offset (p ++ r) = found.withoutAction := by
      rw [Grammar.firstMatch_withoutActions, first]
    have hraw : RawToken.ofMatch found.withoutAction offset (p ++ r) = raw.withoutAction := by
      rw [← raw_eq]
      rfl
    exact .token hfirst hraw reads length hnamed ihzones .nothing ihrest

end Run

/-! ### Sessions without actions -/

namespace Session

variable {s : Session} {t : Text}

/-- A session with room for one region, and the same without actions, follow an account of the
text. -/
theorem run_of_accounts {root : String} {g : Grammar} {tokens : List Token} {log : List Run.Entry}
    (hlimit : s.options.maxRegionDepth ≤ 1) (hget : s.grammars.get? root = some g)
    (hsignal : s.isCancelled = false ∨ t = [])
    (h : Run.Accounts s.grammars s.options.maxInterpolationDepth g 0 t tokens log) :
    s.run t root =
      (.ok tokens, { s with diagnostics := s.diagnostics ++ log.flatMap Run.Entry.reports }) := by
  have htrace : s.trace t g ⟨0, t.width⟩ 0 = ⟨log.flatMap Run.Entry.reports, .ok tokens⟩ := by
    rw [trace, Text.slice_all]
    have hforest := Run.forest_eq_of_accounts h hlimit
    rcases hsignal with hsignal | rfl
    · rw [hsignal]
      exact hforest
    · rw [Run.forest_cancelled_nil false]
      exact hforest
  rw [run, grammar_eq_ok hget]
  dsimp only
  rw [runRange_eq, htrace]

/-- A run from a root that is not in the set fails and leaves the session as it is. -/
theorem run_of_unknown {root : String} (h : s.grammars.contains root = false) :
    s.run t root = (.error (.unknownGrammar root), s) := by
  rw [run, grammar_eq_error (GrammarSet.get?_eq_none h)]

/-- A run fails, with actions and without, because of its root or of the signal; or else its
root is known and no signal stops it. -/
theorem run_fails_or (s : Session) (t : Text) (root : String) :
    (∃ e, s.run t root = (.error e, s) ∧
      s.withoutActions.run t root = (.error e, s.withoutActions) ∧
      (e = .unknownGrammar root ∧ s.grammars.contains root = false ∨
        e = .cancelled ∧ s.isCancelled = true)) ∨
    s.grammars.contains root = true ∧ (s.isCancelled = false ∨ t = []) := by
  have hcontains : s.withoutActions.grammars.contains root = s.grammars.contains root :=
    congrFun s.grammars.contains_withoutActions root
  rcases hroot : s.grammars.contains root with _ | _
  · rw [hroot] at hcontains
    exact Or.inl ⟨_, run_of_unknown hroot, run_of_unknown hcontains, Or.inl ⟨rfl, rfl⟩⟩
  · rw [hroot] at hcontains
    by_cases hstops : s.isCancelled = true ∧ t ≠ []
    · obtain ⟨hcancelled, ht⟩ := hstops
      have hcancelled' : s.withoutActions.isCancelled = true := hcancelled
      exact Or.inl ⟨_, run_cancelled hcancelled ht hroot, run_cancelled hcancelled' ht hcontains,
        Or.inr ⟨rfl, hcancelled⟩⟩
    · rw [not_and_or, not_not, Bool.not_eq_true] at hstops
      exact Or.inr ⟨rfl, hstops⟩

/-- **If no more than one region may be open, actions do nothing but be refused.** Take any
session over a set that has been built, with room for one region, a text and the name of a root.

* Without actions the set can be built as well.
* With and without actions the session returns the same tokens or the same error. There is a
  log of what happens; with actions all its entries are reported, and without actions those that
  are not about actions.
* In the log, a token whose action enters a region, be it a switch, has one report about it, and
  a token with another action or with none has no report.
* The log of tokens is that of an account of the text: the reports about the literal of a token
  stand first, then the entries of the expressions in it, level by level, and then the token with
  its refused action. The log of an error is empty, and the error is that the root is not known
  or that the run has been cancelled. -/
theorem run_withoutActions {grammars : List Grammar}
    (hbuild : GrammarSet.build grammars = .ok s.grammars)
    (hlimit : s.options.maxRegionDepth ≤ 1) (t : Text) (root : String) :
    GrammarSet.build (grammars.map (·.withoutActions)) = .ok s.withoutActions.grammars ∧
    ∃ outcome log,
      s.run t root =
        (outcome, { s with diagnostics := s.diagnostics ++ log.flatMap Run.Entry.reports }) ∧
      s.withoutActions.run t root =
        (outcome, { s.withoutActions with
          diagnostics := s.diagnostics ++ log.flatMap Run.Entry.ownReports }) ∧
      (∀ token refused, .finished token refused ∈ log →
        (∀ id, token.action.bind (·.target) = some id →
          ∃ d, refused = [d] ∧ d.span = token.span ∧
            (d.code = .recursiveRegion ∨ d.code = .nestingLimit)) ∧
        (token.action.bind (·.target) = none → refused = [])) ∧
      (∀ tokens, outcome = .ok tokens →
        ∃ g, s.grammars.get? root = some g ∧
          Run.Accounts s.grammars s.options.maxInterpolationDepth g 0 t tokens log) ∧
      ∀ e, outcome = .error e → log = [] ∧
        (e = .unknownGrammar root ∧ s.grammars.contains root = false ∨
          e = .cancelled ∧ s.isCancelled = true) := by
  refine ⟨GrammarSet.build_withoutActions hbuild, ?_⟩
  rcases s.run_fails_or t root with ⟨e, hrun, hrun', hcause⟩ | ⟨hroot, hsignal⟩
  · refine ⟨.error e, [], ?_, ?_, ?_, nofun, ?_⟩
    · rw [hrun, List.flatMap_nil, List.append_nil]
    · rw [hrun', List.flatMap_nil, List.append_nil]
      rfl
    · intro token refused hmem
      exact absurd hmem List.not_mem_nil
    · rintro _ ⟨⟩
      exact ⟨rfl, hcause⟩
  obtain ⟨g, hget⟩ := GrammarSet.exists_get? hroot
  have hget' : s.withoutActions.grammars.get? root = some g.withoutActions := by
    show s.grammars.withoutActions.get? root = _
    rw [GrammarSet.get?_withoutActions, hget]
    rfl
  obtain ⟨tokens, log, haccounts⟩ := Run.exists_accounts (GrammarSet.valid_of_build hbuild)
    (GrammarSet.mem_of_get? hget) s.options.maxInterpolationDepth 0 t
  refine ⟨.ok tokens, log, run_of_accounts hlimit hget hsignal haccounts, ?_, ?_, ?_, nofun⟩
  · rw [← Run.reports_withoutAction]
    exact run_of_accounts hlimit hget' hsignal haccounts.withoutActions
  · intro token refused hmem
    obtain ⟨_, hrefused⟩ := haccounts.refused_of_mem hmem
    exact hrefused.reports_once
  · rintro _ ⟨⟩
    exact ⟨g, hget, haccounts⟩

/-- The case of a literal with an expression in it, where everything has an action: the
parenthesis in the expression would switch to another grammar, the literal would enter its own
grammar again, and the bar behind it leaves the root. The switch is refused first, and there are
reports about the parenthesis and the literal, which are not there without actions. -/
theorem run_withoutActions_literal :
    let inner : Grammar := ⟨"inner", [], true⟩
    let outer : Grammar :=
      ⟨"outer", [⟨.string, .delimited ⟨['"'], ['"'], none, false, [.braced ['<'] ['>'] none]⟩,
          some (.enter "outer")⟩,
        ⟨.punctuation, .literal ['('], some (.switch "inner")⟩,
        ⟨.operator, .literal ['|'], some .exit⟩], false⟩
    let s : Session := { grammars := ⟨[outer, inner]⟩, options := { maxRegionDepth := 1 } }
    let t := ['"', '<', '(', '>', '"', '|']
    GrammarSet.build [outer, inner] = .ok s.grammars ∧ s.options.maxRegionDepth ≤ 1 ∧
    (s.run t "outer").2.diagnostics.map (fun d => (d.code, d.span)) =
      [(.nestingLimit, ⟨2, 3⟩), (.recursiveRegion, ⟨0, 5⟩)] ∧
    (s.withoutActions.run t "outer").2.diagnostics = [] ∧
    GrammarSet.build [outer.withoutActions, inner.withoutActions] = .ok s.withoutActions.grammars ∧
    (s.withoutActions.run t "outer").1 = (s.run t "outer").1 ∧
    ∃ log : List Run.Entry,
      (s.run t "outer").2.diagnostics = log.flatMap Run.Entry.reports ∧
      (s.withoutActions.run t "outer").2.diagnostics = log.flatMap Run.Entry.ownReports := by
  intro inner outer s t
  have hbuild : GrammarSet.build [outer, inner] = .ok s.grammars := rfl
  have hlimit : s.options.maxRegionDepth ≤ 1 := Nat.le_refl 1
  obtain ⟨hbare, outcome, log, hrun, hrun', -⟩ := run_withoutActions hbuild hlimit t "outer"
  refine ⟨hbuild, hlimit, ?_, ?_, hbare, ?_, log, ?_, ?_⟩
  · cbv
  · cbv
  · rw [hrun, hrun']
  · rw [hrun]
    rfl
  · rw [hrun']
    rfl

end Session

end Polylex
