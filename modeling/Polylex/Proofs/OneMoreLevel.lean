import Polylex.Proofs.FirstMatch

/-!
# One more level for the token at the start of a text

Which rule gives the token at the start of a text does not depend on the levels that are
left: a literal matches as soon as its opening delimiter is there, and a heredoc with its
introducing line. How far the token reaches can depend on them for a literal between
delimiters. A heredoc ends with its terminator, so there the levels decide about the zones
alone.

The bodies that the rule of the token leads to without any level left
(`Polylex.Grammar.exhausted`) are therefore all that matters. If they are steady, the token
with one more level *deepens* the token without (`Polylex.Match.Deepens`): it may have more
zones where there was no level left, and it is the same token otherwise
(`Polylex.Grammar.deepens_firstMatch`).
-/

namespace Polylex

open Literal

/-! ### Matchers -/

namespace Matcher

variable {m : Matcher} {literals : List Delimited} {budget offset : Nat} {t : Text}

/-- The bodies that a matcher leads to without any level left. At the last level the body of
a heredoc is not one of them, since it does not decide where the heredoc ends. -/
def exhausted (m : Matcher) (literals : List Delimited) (budget offset : Nat) (t : Text) :
    List Place :=
  match m with
  | delimited spec =>
    Literal.exhausted budget ⟨Host.ofDelimited spec offset literals, offset + spec.opener.width,
      t.drop spec.opener.length⟩
  | heredoc spec =>
    if budget = 0 then []
    else
      match spec.frame? offset t with
      | none => []
      | some f => Literal.exhausted budget (f.place spec literals offset)
  | _ => []

/-- Two literals at the start of a text are of the same length. -/
theorem length_matchDelimited?_succ {spec : Delimited}
    (h : ∀ e ∈ (delimited spec).exhausted literals budget offset t, e.Steady) :
    (matchDelimited? spec literals (budget + 1) offset t).map (·.length) =
      (matchDelimited? spec literals budget offset t).map (·.length) := by
  have hextent := extent_scanBody_succ h
  have hlength := congrArg Prod.fst hextent
  dsimp only [BodyScan.extent, Place.scan] at hlength
  rw [matchDelimited?, matchDelimited?]
  split
  · rw [Option.map_some, Option.map_some, hlength]
  · rfl

theorem matchDelimited?_succ {spec : Delimited} (hpos : 0 < budget)
    (h : ∀ e ∈ (delimited spec).exhausted literals budget offset t, e.Steady) :
    matchDelimited? spec literals (budget + 1) offset t =
      matchDelimited? spec literals budget offset t := by
  have hscan := scanBody_succ_eq hpos h
  dsimp only [Place.scan] at hscan
  rw [matchDelimited?, matchDelimited?]
  dsimp only
  rw [hscan]

theorem length_matchHeredoc? (spec : Heredoc) (literals : List Delimited)
    (budget budget' offset : Nat) (t : Text) :
    (matchHeredoc? spec literals budget offset t).map (·.length) =
      (matchHeredoc? spec literals budget' offset t).map (·.length) := by
  rw [Heredoc.matchHeredoc?_eq, Heredoc.matchHeredoc?_eq, Option.map_map, Option.map_map]
  rfl

theorem matchHeredoc?_succ {spec : Heredoc} (hpos : 0 < budget)
    (h : ∀ e ∈ (heredoc spec).exhausted literals budget offset t, e.Steady) :
    matchHeredoc? spec literals (budget + 1) offset t =
      matchHeredoc? spec literals budget offset t := by
  rw [exhausted, if_neg (Nat.pos_iff_ne_zero.mp hpos)] at h
  rw [Heredoc.matchHeredoc?_eq, Heredoc.matchHeredoc?_eq]
  cases hframe : spec.frame? offset t with
  | none => rfl
  | some f =>
    rw [hframe] at h
    have hscan : f.scan spec literals (budget + 1) offset = f.scan spec literals budget offset := by
      rw [Heredoc.Frame.scan_eq, Heredoc.Frame.scan_eq, scanBody_succ_eq hpos h]
    rw [Option.map_some, Option.map_some, hscan]

/-- **With one more level a matcher reads as much**, if its bodies are steady. -/
theorem length_match?_succ (h : ∀ e ∈ m.exhausted literals budget offset t, e.Steady) :
    (m.match? literals (budget + 1) offset t).map (·.length) =
      (m.match? literals budget offset t).map (·.length) := by
  cases m with
  | delimited spec => exact length_matchDelimited?_succ h
  | heredoc spec => exact length_matchHeredoc? spec literals _ _ offset t
  | _ => rfl

/-- **While a level is left, a matcher finds the same with one more**, if its bodies are
steady. -/
theorem match?_succ (hpos : 0 < budget)
    (h : ∀ e ∈ m.exhausted literals budget offset t, e.Steady) :
    m.match? literals (budget + 1) offset t = m.match? literals budget offset t := by
  cases m with
  | delimited spec => exact matchDelimited?_succ hpos h
  | heredoc spec => exact matchHeredoc?_succ hpos h
  | _ => rfl

/-- **Whether a matcher reads something does not depend on the levels**, if it has no empty
delimiter to begin with. -/
theorem reads_iff (hreads : m.canMatchEmpty = false) (budget budget' : Nat) :
    m.Reads literals budget offset t ↔ m.Reads literals budget' offset t := by
  cases m with
  | delimited spec =>
    have hopener : spec.opener.length ≠ 0 := by
      rw [canMatchEmpty, Bool.or_eq_false_iff] at hreads
      simpa using hreads.1
    -- A literal reads its opening delimiter at least.
    have hiff : ∀ budget,
        (∃ found, matchDelimited? spec literals budget offset t = some found ∧ found.length ≠ 0) ↔
          spec.opener.isPrefixOf t = true := by
      intro budget
      rw [matchDelimited?]
      split
      next hopen =>
        refine ⟨fun _ => hopen, fun _ => ⟨_, rfl, ?_⟩⟩
        dsimp only
        omega
      next hopen =>
        refine ⟨?_, fun h => absurd h hopen⟩
        rintro ⟨_, h, _⟩
        cases h
    exact (hiff budget).trans (hiff budget').symm
  | heredoc spec =>
    have hiff : ∀ budget,
        (∃ found, matchHeredoc? spec literals budget offset t = some found ∧ found.length ≠ 0) ↔
          ∃ f, spec.frame? offset t = some f ∧ f.length ≠ 0 := by
      intro budget
      rw [Heredoc.matchHeredoc?_eq]
      cases spec.frame? offset t <;> simp
    exact (hiff budget).trans (hiff budget').symm
  | _ => exact Iff.rfl

end Matcher

/-! ### The token at the start of a text -/

namespace Match

/-- A match without what depends on the levels. -/
def bare (m : Match) : Match := { m with zones := [], diagnostics := [] }

/-- **A match with one more level than a budget deepens a match within the budget** if it is
the same but for its zones and its reports, and those are the same too unless the budget is
used up. -/
structure Deepens (budget : Nat) (m m' : Match) : Prop where
  bare_eq : m'.bare = m.bare
  eq_of_pos : 0 < budget → m' = m

theorem Deepens.refl (budget : Nat) (m : Match) : Deepens budget m m := ⟨rfl, fun _ => rfl⟩

theorem Deepens.length_eq {budget : Nat} {m m' : Match} (h : Deepens budget m m') :
    m'.length = m.length := by
  have hlength := congrArg Match.length h.bare_eq
  exact hlength

end Match

namespace Rule

variable {r : Rule} {index budget offset : Nat} {literals : List Delimited} {t : Text}

/-- **Whether a rule gives the token does not depend on the levels.** -/
theorem match?_eq_none_congr (hreads : r.matcher.canMatchEmpty = false)
    (index budget index' budget' : Nat) :
    r.match? index literals budget offset t = none ↔
      r.match? index' literals budget' offset t = none := by
  rw [match?_eq_none_iff, match?_eq_none_iff, Matcher.reads_iff hreads budget budget']

/-- **With one more level a rule gives a token that deepens the one it gives.** -/
theorem deepens_match? {m : Match}
    (h : ∀ e ∈ r.matcher.exhausted literals budget offset t, e.Steady)
    (hm : r.match? index literals budget offset t = some m) :
    ∃ m', r.match? index literals (budget + 1) offset t = some m' ∧ m.Deepens budget m' := by
  rw [match?_eq] at hm
  split at hm
  · cases hm
  next found hfound =>
  split at hm
  · cases hm
  next hpos =>
  cases hm
  obtain ⟨found', hfound', hlength⟩ : ∃ found',
      r.matcher.match? literals (budget + 1) offset t = some found' ∧
        found'.length = found.length := by
    have hlengths := Matcher.length_match?_succ h
    rw [hfound, Option.map_some] at hlengths
    exact Option.map_eq_some_iff.mp hlengths
  refine ⟨⟨some index, r.kind, r.action, found'.length, found'.zones, found'.diagnostics⟩, ?_,
    ?_, fun hbudget => ?_⟩
  · rw [match?_eq, hfound']
    exact if_neg (hlength ▸ hpos)
  · simp only [Match.bare, hlength]
  · have hsame := Matcher.match?_succ hbudget h
    rw [hfound, hfound', Option.some.injEq] at hsame
    rw [hsame]

end Rule

namespace Grammar

variable {literals : List Delimited} {budget offset : Nat} {t : Text}

/-- The bodies that the first of some rules which gives a token leads to without any level
left. -/
def exhaustedOf (literals : List Delimited) (budget offset : Nat) (t : Text) :
    List Rule → List Place
  | [] => []
  | r :: rest =>
    match r.match? 0 literals budget offset t with
    | some _ => r.matcher.exhausted literals budget offset t
    | none => exhaustedOf literals budget offset t rest

/-- **The bodies that the token at the start of a text leads to without any level left.** -/
def exhausted (g : Grammar) (budget offset : Nat) (t : Text) : List Place :=
  exhaustedOf g.literals budget offset t g.rules

/-- The first rule that gives a token is the same with one more level. -/
theorem deepens_firstOf {rules : List Rule} (hreads : ∀ r ∈ rules, r.matcher.canMatchEmpty = false)
    (h : ∀ e ∈ exhaustedOf literals budget offset t rules, e.Steady) (index : Nat) :
    (firstOf literals budget offset t index rules = none ∧
      firstOf literals (budget + 1) offset t index rules = none) ∨
    ∃ m m', firstOf literals budget offset t index rules = some m ∧
      firstOf literals (budget + 1) offset t index rules = some m' ∧ m.Deepens budget m' := by
  induction rules generalizing index with
  | nil => exact Or.inl ⟨rfl, rfl⟩
  | cons r rest ih =>
    obtain ⟨hr, hrest⟩ := List.forall_mem_cons.mp hreads
    rw [exhaustedOf] at h
    rw [firstOf_cons, firstOf_cons]
    cases hm : r.match? index literals budget offset t with
    | none =>
      have h0 : r.match? 0 literals budget offset t = none :=
        (Rule.match?_eq_none_congr hr index budget 0 budget).mp hm
      have hm' : r.match? index literals (budget + 1) offset t = none :=
        (Rule.match?_eq_none_congr hr index budget index (budget + 1)).mp hm
      rw [h0] at h
      rw [hm']
      exact ih hrest h (index + 1)
    | some m =>
      obtain ⟨m0, h0⟩ : ∃ m0, r.match? 0 literals budget offset t = some m0 := by
        rw [← Option.ne_none_iff_exists', ne_eq,
          Rule.match?_eq_none_congr hr 0 budget index budget, hm]
        exact Option.some_ne_none m
      rw [h0] at h
      obtain ⟨m', hm', hdeepens⟩ := Rule.deepens_match? h hm
      rw [hm']
      exact Or.inr ⟨m, m', rfl, rfl, hdeepens⟩

/-- **With one more level the token at the start of a text deepens**, if the bodies that it
leads to without any level are steady. -/
theorem deepens_firstMatch {g : Grammar} (hreads : ∀ r ∈ g.rules, r.matcher.canMatchEmpty = false)
    (h : ∀ e ∈ g.exhausted budget offset t, e.Steady) :
    (g.firstMatch budget offset t).Deepens budget (g.firstMatch (budget + 1) offset t) := by
  rw [firstMatch_eq, firstMatch_eq]
  rcases deepens_firstOf hreads h 0 with ⟨hnone, hnone'⟩ | ⟨m, m', hm, hm', hdeepens⟩
  · rw [hnone, hnone']
    exact .refl budget _
  · rw [hm, hm']
    exact hdeepens

end Grammar

end Polylex
