import Polylex.Proofs.FirstMatch

/-!
# A scan to its end

A scanner that is asked for one token after the other comes to the end of its stretch of text,
and to nowhere else: every token reads something, begins where the one before ends, and stays
in front of the limit. What the tokens are is decided by the rules in their order
(`Polylex.RawToken.IsFirst`): a token is what the first rule that reads anything reads, and
where no rule does it is a single unclassified character.

Two ways of asking are compared. `Polylex.Scanner.scanOne` always goes on, and
`Polylex.Scanner.next` stops after a token that acts on the regions. What is asked for in
either way unfolds a list of tokens (`Polylex.Scanner.Unfolds`), and the second list is the
beginning of the first up to the first token that acts (`Polylex.Scanner.upToBoundary`).

What every step keeps is that the scanner stands in its text (`Polylex.Scanner.Stands`): what
it has left is the text between its cursor and the limit.
-/

namespace Polylex

variable {g : Grammar} {budget limit : Nat} {t : Text}

/-- **A token is the first match of a grammar** at the place where it starts, in a text in
front of a limit. -/
structure RawToken.IsFirst (g : Grammar) (budget : Nat) (t : Text) (limit : Nat)
    (raw : RawToken) : Prop where
  isRange : t.IsRange raw.span
  reads : raw.span.start < raw.span.stop
  within : raw.span.stop ≤ limit
  /-- The token of a rule is the beginning of the text in front of the limit, as long as the
  rule's matcher says. No rule before it reads anything. -/
  ofRule : ∀ i, raw.rule = some i → ∃ r found, g.rules[i]? = some r ∧
    r.matcher.match? g.literals budget raw.span.start (t.slice ⟨raw.span.start, limit⟩) =
      some found ∧
    t.slice raw.span <+: t.slice ⟨raw.span.start, limit⟩ ∧
    (t.slice raw.span).length = found.length ∧
    raw.kind = r.kind ∧ raw.action = r.action ∧ raw.zones = found.zones ∧
    ∀ j < i, ∀ r', g.rules[j]? = some r' →
      ¬r'.matcher.Reads g.literals budget raw.span.start (t.slice ⟨raw.span.start, limit⟩)
  /-- A token without a rule is a character. No rule reads anything. -/
  ofNone : raw.rule = none → raw.kind = .unclassified ∧ raw.action = none ∧ raw.zones = [] ∧
    (∃ c, t.slice raw.span = [c]) ∧
    ∀ r ∈ g.rules,
      ¬r.matcher.Reads g.literals budget raw.span.start (t.slice ⟨raw.span.start, limit⟩)

namespace RawToken

variable {offset : Nat} {p r : Text}

/-- **What a scanner finds is the first match.** A piece that is as long as the match at the
start of a text is its token. -/
theorem isFirst_ofMatch (hat : t.At offset (p ++ r)) (hlimit : limit = offset + (p ++ r).width)
    (hlength : p.length = (g.firstMatch budget offset (p ++ r)).length) (hne : p ≠ []) :
    (ofMatch (g.firstMatch budget offset (p ++ r)) offset (p ++ r)).IsFirst g budget t limit := by
  have hspan : (ofMatch (g.firstMatch budget offset (p ++ r)) offset (p ++ r)).span =
      ⟨offset, offset + p.width⟩ := by
    rw [ofMatch, ← hlength, List.take_left]
  have hslice : t.slice ⟨offset, limit⟩ = p ++ r := by
    rw [hlimit]
    exact hat.slice_eq
  have hpiece : t.slice ⟨offset, offset + p.width⟩ = p := hat.left.slice_eq
  refine ⟨?_, ?_, ?_, fun i hi => ?_, fun hnone => ?_⟩
  · rw [hspan]
    exact hat.left.isRange
  · rw [hspan]
    exact Nat.lt_add_of_pos_right (Text.width_pos hne)
  · rw [hspan, hlimit, Text.width_append]
    exact Nat.add_le_add_left (Nat.le_add_right _ _) offset
  · rw [hspan, hpiece, hlength]
    dsimp only
    rw [hslice]
    rw [ofMatch, Grammar.firstMatch_eq] at hi ⊢
    rcases hfirst : Grammar.firstOf g.literals budget offset (p ++ r) 0 g.rules with _ | m
    · rw [hfirst] at hi
      cases hi
    · rw [hfirst] at hi
      obtain ⟨k, rule, found, hrule, hfound, rfl, hearlier⟩ := Grammar.exists_rule_of_firstOf hfirst
      rw [Nat.zero_add] at hi
      cases hi
      exact ⟨rule, found, hrule, hfound, List.prefix_append p r, rfl, rfl, rfl, rfl, hearlier⟩
  · rw [hspan, hpiece]
    dsimp only
    rw [hslice]
    rw [ofMatch, Grammar.firstMatch_eq] at hnone ⊢
    rw [Grammar.firstMatch_eq] at hlength
    rcases hfirst : Grammar.firstOf g.literals budget offset (p ++ r) 0 g.rules with _ | m
    · rw [hfirst] at hlength
      exact ⟨rfl, rfl, rfl, List.length_eq_one_iff.mp hlength,
        Grammar.firstOf_eq_none_iff.mp hfirst⟩
    · rw [hfirst] at hnone
      obtain ⟨k, rule, found, -, -, rfl, -⟩ := Grammar.exists_rule_of_firstOf hfirst
      cases hnone

end RawToken

namespace Scanner

variable {s s' : Scanner} {raw : RawToken} {steps : List (RawToken × Scanner)}

/-! ### Asking for one token after the other -/

/-- **What a scanner unfolds to**, if it is asked in some way for one token after the other:
the tokens up to where there are none, each with the scanner after it. -/
inductive Unfolds (step : Scanner → Option RawToken × Scanner) :
    Scanner → List (RawToken × Scanner) → Prop
  | done {s : Scanner} (none : (step s).1 = none) : Unfolds step s []
  | token {s s' : Scanner} {raw : RawToken} {steps : List (RawToken × Scanner)}
      (found : step s = (some raw, s')) (rest : Unfolds step s' steps) :
      Unfolds step s ((raw, s') :: steps)

/-- **A scanner unfolds in a single way.** -/
theorem Unfolds.iff_eq {step : Scanner → Option RawToken × Scanner} (h : Unfolds step s steps)
    {steps' : List (RawToken × Scanner)} : Unfolds step s steps' ↔ steps' = steps := by
  constructor
  · intro h'
    induction h generalizing steps' with
    | done hnone =>
      rcases h' with _ | ⟨hfound, -⟩
      · rfl
      · rw [hfound] at hnone
        cases hnone
    | token hfound rest ih =>
      rcases h' with hnone | ⟨hfound', hrest⟩
      · rw [hfound] at hnone
        cases hnone
      · rw [hfound] at hfound'
        cases hfound'
        rw [ih hrest]
  · rintro rfl
    exact h

/-- Tokens follow each other from an offset to a limit, and after each the scanner is where the
token ends. -/
def Chain (limit : Nat) : Nat → List (RawToken × Scanner) → Prop
  | offset, [] => offset = limit
  | offset, (raw, s) :: steps =>
    raw.span.start = offset ∧ s.cursor = raw.span.stop ∧ Chain limit raw.span.stop steps

/-- The tokens up to the first one that acts on the regions, and with it. -/
def upToBoundary : List RawToken → List RawToken
  | [] => []
  | raw :: rest => raw :: if raw.isBoundary then [] else upToBoundary rest

theorem length_upToBoundary_le (raws : List RawToken) :
    (upToBoundary raws).length ≤ raws.length := by
  induction raws with
  | nil => exact Nat.le_refl 0
  | cons raw rest ih =>
    rw [upToBoundary, List.length_cons, List.length_cons]
    split
    · exact Nat.succ_le_succ (Nat.zero_le _)
    · exact Nat.succ_le_succ ih

/-! ### Scanners in a text -/

/-- **A scanner stands in a text** in front of a limit: what it has left is the text between
its cursor and the limit. -/
structure Stands (g : Grammar) (budget : Nat) (t : Text) (limit : Nat) (s : Scanner) : Prop where
  grammar_eq : s.grammar = g
  budget_eq : s.budget = budget
  rest : t.At s.cursor s.rest
  limit_eq : limit = s.cursor + s.rest.width

theorem stands_start {cursor : Nat} (h : t.IsRange ⟨cursor, limit⟩) :
    (start g t cursor limit budget).Stands g budget t limit :=
  ⟨rfl, rfl, h.at.1, h.at.2⟩

theorem rest_ne_nil_of_scanOne (h : s.scanOne = (some raw, s')) : s.rest ≠ [] := by
  intro hnil
  rw [scanOne_of_rest_eq_nil hnil] at h
  cases h

theorem atBoundary_scanOne (h : s.scanOne = (some raw, s')) : s'.atBoundary = s.atBoundary := by
  rw [scanOne] at h
  split at h
  · cases h
  · cases h
    rfl

/-- A step of a scanner in a text: the token is the first match at the cursor, and the scanner
stands behind it with less of the text left. -/
structure Step (g : Grammar) (budget : Nat) (t : Text) (limit : Nat) (s : Scanner)
    (raw : RawToken) (s' : Scanner) : Prop where
  stands : s'.Stands g budget t limit
  start_eq : raw.span.start = s.cursor
  cursor_eq : s'.cursor = raw.span.stop
  isFirst : raw.IsFirst g budget t limit
  length_lt : s'.rest.length < s.rest.length

/-- **A scanner in a text finds a token, unless nothing is left**, and stands in the text
again. -/
theorem Stands.exists_step
    (hforms : ∀ r ∈ g.rules, ∀ form ∈ r.matcher.interpolations, form.opener ≠ [])
    (h : s.Stands g budget t limit) (hne : s.rest ≠ []) :
    ∃ raw s', s.scanOne = (some raw, s') ∧ Step g budget t limit s raw s' := by
  obtain ⟨⟨before, cursor, rest⟩, g, budget, atBoundary, diagnostics⟩ := s
  obtain ⟨rfl, rfl, hat, hlimit⟩ := h
  dsimp only at *
  have hfits : (g.firstMatch budget cursor rest).Fits g.rules budget cursor rest :=
    g.fits_firstMatch hforms hne
  -- The text that is left is the token and what stands behind it.
  obtain ⟨p, r, rfl, hlength⟩ : ∃ p r, rest = p ++ r ∧
      p.length = (g.firstMatch budget cursor rest).length :=
    ⟨_, _, (List.take_append_drop _ _).symm, List.length_take_of_le hfits.length_le⟩
  have hpos : 0 < p.length := hlength ▸ hfits.length_pos
  have hstop : (RawToken.ofMatch (g.firstMatch budget cursor (p ++ r)) cursor (p ++ r)).span.stop =
      cursor + p.width := by
    rw [RawToken.ofMatch, ← hlength, List.take_left]
  refine ⟨RawToken.ofMatch (g.firstMatch budget cursor (p ++ r)) cursor (p ++ r),
    ⟨⟨before ++ p, cursor + p.width, r⟩, g, budget, atBoundary,
      diagnostics ++ (g.firstMatch budget cursor (p ++ r)).diagnostics⟩, ?_, ?_, rfl, hstop.symm,
    RawToken.isFirst_ofMatch hat hlimit hlength (List.length_pos_iff.mp hpos), ?_⟩
  · rw [scanOne_of_rest_ne_nil hne]
    dsimp only [Window.advance]
    rw [← hlength, List.take_left, List.drop_left]
  · rw [Text.width_append, ← Nat.add_assoc] at hlimit
    exact ⟨rfl, rfl, hat.right, hlimit⟩
  · dsimp only
    rw [List.length_append]
    exact Nat.lt_add_of_pos_left hpos

/-- Whatever a scanner in a text finds, it makes a step. -/
theorem Stands.step_of_scanOne
    (hforms : ∀ r ∈ g.rules, ∀ form ∈ r.matcher.interpolations, form.opener ≠ [])
    (h : s.Stands g budget t limit) (hscan : s.scanOne = (some raw, s')) :
    Step g budget t limit s raw s' := by
  obtain ⟨raw', s'', hscan', hstep⟩ := h.exists_step hforms (rest_ne_nil_of_scanOne hscan)
  rw [hscan] at hscan'
  cases hscan'
  exact hstep

/-! ### Whole scans -/

/-- **A scanner in a text comes to the limit**, with no more tokens than it has characters
left. -/
theorem Stands.exists_unfolds
    (hforms : ∀ r ∈ g.rules, ∀ form ∈ r.matcher.interpolations, form.opener ≠ [])
    (h : s.Stands g budget t limit) :
    ∃ steps, Unfolds scanOne s steps ∧ Chain limit s.cursor steps ∧
      steps.length ≤ s.rest.length := by
  -- The induction is on what is left: no token is empty.
  induction hn : s.rest.length using Nat.strongRecOn generalizing s with
  | ind n ih =>
  subst hn
  by_cases hrest : s.rest = []
  · have hcursor : s.cursor = limit := by
      rw [h.limit_eq, hrest, Text.width_nil, Nat.add_zero]
    refine ⟨[], .done ?_, hcursor, Nat.zero_le _⟩
    rw [scanOne_of_rest_eq_nil hrest]
  · obtain ⟨raw, s', hscan, hstep⟩ := h.exists_step hforms hrest
    obtain ⟨steps, hunfolds, hchain, hlength⟩ := ih _ hstep.length_lt hstep.stands rfl
    refine ⟨(raw, s') :: steps, .token hscan hunfolds, ⟨hstep.start_eq, hstep.cursor_eq, ?_⟩, ?_⟩
    · rwa [← hstep.cursor_eq]
    · exact Nat.lt_of_le_of_lt hlength hstep.length_lt

/-- **All tokens that a scanner in a text unfolds to are first matches.** -/
theorem Unfolds.isFirst
    (hforms : ∀ r ∈ g.rules, ∀ form ∈ r.matcher.interpolations, form.opener ≠ [])
    (h : Unfolds scanOne s steps) (hs : s.Stands g budget t limit) :
    ∀ step ∈ steps, step.1.IsFirst g budget t limit := by
  induction h with
  | done => exact List.forall_mem_nil _
  | token hscan rest ih =>
    have hstep := hs.step_of_scanOne hforms hscan
    exact List.forall_mem_cons.mpr ⟨hstep.isFirst, ih hstep.stands⟩

/-- **To stop behind a token that acts** is to ask for the tokens up to the first such. -/
theorem Unfolds.exists_next (h : Unfolds scanOne s steps) (hs : s.atBoundary = false) :
    ∃ nexts, Unfolds next s nexts ∧ nexts.map Prod.fst = upToBoundary (steps.map Prod.fst) := by
  induction h with
  | @done s hnone =>
    refine ⟨[], .done ?_, rfl⟩
    rw [next, if_neg (hs ▸ Bool.false_ne_true)]
    split
    · rfl
    next hscan =>
      rw [hscan] at hnone
      cases hnone
  | @token s s' raw steps hscan rest ih =>
    have hs' : s'.atBoundary = false := (atBoundary_scanOne hscan).trans hs
    have hnext : s.next = (some raw, { s' with atBoundary := raw.isBoundary }) := by
      rw [next, if_neg (hs ▸ Bool.false_ne_true), hscan]
    rw [List.map_cons, upToBoundary]
    rcases hacts : raw.isBoundary with _ | _
    · rw [hacts, ← hs'] at hnext
      obtain ⟨nexts, hunfolds, htokens⟩ := ih hs'
      exact ⟨(raw, s') :: nexts, .token hnext hunfolds, congrArg (raw :: ·) htokens⟩
    · rw [hacts] at hnext
      -- There is nothing behind a token that acts.
      exact ⟨[(raw, { s' with atBoundary := true })], .token hnext (.done rfl), rfl⟩

/-- All that a scanner gives until it stops. -/
theorem Unfolds.take_eq {nexts : List (RawToken × Scanner)} (h : Unfolds next s nexts) {n : Nat}
    (hn : nexts.length ≤ n) : (s.take n).1 = nexts.map Prod.fst := by
  induction h generalizing n with
  | @done s hnone =>
    rcases n with _ | n
    · rfl
    · rw [take]
      split
      · rfl
      next hnext =>
        rw [hnext] at hnone
        cases hnone
  | token hnext rest ih =>
    rcases n with _ | n
    · cases hn
    · rw [take, hnext]
      exact congrArg (_ :: ·) (ih (Nat.le_of_succ_le_succ hn))

/-- **A scan comes to its end, by first matches.** In a text with a cursor that is not behind a
limit, and with any budget, asking a scanner for one token after the other gives tokens that
follow each other from the cursor to the limit, and then none. Each is the first match where it
starts, and after each the scanner is where the token ends. As a sequence, the scanner gives
these tokens up to the first one that acts on the regions. -/
theorem scan_by_first_matches {cursor : Nat}
    (hforms : ∀ r ∈ g.rules, ∀ form ∈ r.matcher.interpolations, form.opener ≠ [])
    (hrange : t.IsRange ⟨cursor, limit⟩) (budget : Nat) :
    ∃ steps nexts,
      (∀ steps', Unfolds scanOne (start g t cursor limit budget) steps' ↔ steps' = steps) ∧
      Chain limit cursor steps ∧ (∀ step ∈ steps, step.1.IsFirst g budget t limit) ∧
      (∀ nexts', Unfolds next (start g t cursor limit budget) nexts' ↔ nexts' = nexts) ∧
      nexts.map Prod.fst = upToBoundary (steps.map Prod.fst) ∧
      (start g t cursor limit budget).all.1 = nexts.map Prod.fst := by
  have hstands : (start g t cursor limit budget).Stands g budget t limit := stands_start hrange
  obtain ⟨steps, hunfolds, hchain, hlength⟩ := hstands.exists_unfolds hforms
  obtain ⟨nexts, hnexts, htokens⟩ := hunfolds.exists_next rfl
  refine ⟨steps, nexts, fun _ => hunfolds.iff_eq, hchain, hunfolds.isFirst hforms hstands,
    fun _ => hnexts.iff_eq, htokens, hnexts.take_eq (Nat.le_trans ?_ hlength)⟩
  have hle := length_upToBoundary_le (steps.map Prod.fst)
  rwa [← htokens, List.length_map, List.length_map] at hle

/-- The case of a literal with an expression, between two offsets of a text, and of a token
behind it that enters a region. The scan goes on with a character that no rule matches. -/
theorem scan_by_first_matches_entering :
    let g : Grammar :=
      ⟨"g", [⟨.string, .delimited ⟨['"'], ['"'], none, false,
          [.braced ['\x7b'] ['\x7d'] none]⟩, none⟩,
        ⟨.tag, .literal ['<'], some (.enter "h")⟩], false⟩
    let t : Text := ['é', '"', '\x7b', 'a', '\x7d', '"', '<', 'b', 'c']
    (∀ r ∈ g.rules, ∀ form ∈ r.matcher.interpolations, form.opener ≠ []) ∧ t.IsRange ⟨2, 9⟩ ∧
    ((start g t 2 9 1).all.1.map fun raw => (raw.kind, raw.span)) =
      [(.string, ⟨2, 7⟩), (.tag, ⟨7, 8⟩)] ∧
    ∃ steps, Unfolds scanOne (start g t 2 9 1) steps ∧ Chain 9 2 steps ∧
      (∀ step ∈ steps, step.1.IsFirst g 1 t 9) ∧
      (start g t 2 9 1).all.1 = upToBoundary (steps.map Prod.fst) := by
  intro g t
  have hforms : ∀ r ∈ g.rules, ∀ form ∈ r.matcher.interpolations, form.opener ≠ [] := by decide
  have hrange : t.IsRange ⟨2, 9⟩ := Text.isRange_iff_exists.mpr
    ⟨['é'], ['"', '\x7b', 'a', '\x7d', '"', '<', 'b'], ['c'], rfl, rfl⟩
  obtain ⟨steps, nexts, hunfolds, hchain, hfirst, -, htokens, hall⟩ :=
    scan_by_first_matches hforms hrange 1
  exact ⟨hforms, hrange, rfl, steps, (hunfolds steps).mpr rfl, hchain, hfirst, hall.trans htokens⟩

end Scanner

end Polylex
