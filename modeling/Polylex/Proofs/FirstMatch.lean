import Polylex.Proofs.Literal.Heredoc
import Polylex.Scanner

/-!
# The token at the start of a text

Whatever rule finds it, the token at the start of a nonempty text *fits*
(`Polylex.Match.Fits`): it reads at least one character and no more than there are, its
zones are in what it reads, and the names it carries are names that a rule of the grammar
mentions. The lower bound is not a matter of the matchers – a rule whose match is empty does
not count, and where no rule counts a single character is read – so it holds for every
grammar; the zones need the opening delimiters to be nonempty
(`Polylex.Grammar.fits_firstMatch`).

In a valid set the names can be looked up as well (`Polylex.Match.Fits.known_of_mem_zones`,
`Polylex.Match.Fits.known_of_target`).
-/

namespace Polylex

variable {budget offset : Nat} {t : Text}

/-! ### Matchers -/

theorem CharClass.runLength?_le {cls : CharClass} {repeats : Bool} {n : Nat}
    (h : cls.runLength? repeats t = some n) : n ≤ t.length := by
  cases t with
  | nil => cases h
  | cons c t =>
    rw [runLength?] at h
    split at h
    · cases h
      split
      · rw [List.length_cons, Nat.add_comm]
        exact Nat.succ_le_succ (List.takeWhile_sublist _).length_le
      · exact Nat.succ_pos _
    · cases h

theorem Pattern.matchLength?_le {p : Pattern} {n : Nat} (h : p.matchLength? t = some n) :
    n ≤ t.length :=
  p.length_le (Option.filter_eq_some_iff.mp h).1

/-- **A match fits the text**, whatever the matcher. -/
theorem Matcher.fits_of_match? {m : Matcher} {literals : List Delimited} {found : Literal.Found}
    (hforms : ∀ form ∈ m.interpolations, form.opener ≠ [])
    (h : m.match? literals budget offset t = some found) :
    found.Fits m.interpolations budget offset t := by
  cases m with
  | literal text =>
    rw [match?_literal] at h
    split at h
    next hbegins =>
      cases h
      exact .of_length_le (List.isPrefixOf_iff_prefix.mp hbegins).length_le
    next => cases h
  | keyword text =>
    rw [match?_keyword] at h
    split at h
    next hboth =>
      cases h
      have hbegins := (Bool.and_eq_true_iff.mp hboth).1
      exact .of_length_le (List.isPrefixOf_iff_prefix.mp hbegins).length_le
    next => cases h
  | chars cls repeats =>
    obtain ⟨n, hn, rfl⟩ := Option.map_eq_some_iff.mp h
    exact .of_length_le (CharClass.runLength?_le hn)
  | pattern p =>
    obtain ⟨n, hn, rfl⟩ := Option.map_eq_some_iff.mp h
    exact .of_length_le (Pattern.matchLength?_le hn)
  | delimited spec => exact Literal.fits_of_matchDelimited? hforms h
  | heredoc spec => exact Heredoc.fits_of_matchHeredoc? hforms h

/-- A matcher *reads* something at the start of a text at an offset. -/
def Matcher.Reads (m : Matcher) (literals : List Delimited) (budget offset : Nat) (t : Text) :
    Prop :=
  ∃ found, m.match? literals budget offset t = some found ∧ found.length ≠ 0

/-- Only a rule that reads something gives a token. -/
theorem Rule.match?_eq_none_iff {r : Rule} {index : Nat} {literals : List Delimited} :
    r.match? index literals budget offset t = none ↔ ¬r.matcher.Reads literals budget offset t := by
  rw [match?_eq, Matcher.Reads]
  rcases r.matcher.match? literals budget offset t with _ | found
  · simp
  · by_cases hlength : found.length = 0 <;> simp [hlength]

/-! ### The first match -/

/-- A token at the start of a text fits it: it reads something and does not reach beyond the
text, its zones are in what it reads, and its names are those of some rules. Without budget
it has no zones. -/
structure Match.Fits (rules : List Rule) (budget offset : Nat) (t : Text) (m : Match) : Prop where
  length_pos : 0 < m.length
  length_le : m.length ≤ t.length
  zones : Literal.ZonesIn offset (t.take m.length) m.zones
  forms : ∀ z ∈ m.zones, 0 < budget ∧
    ∃ r ∈ rules, ∃ form ∈ r.matcher.interpolations, z.grammar = form.grammar
  action : ∀ id, m.action.bind (·.target) = some id → ∃ r ∈ rules, r.target = some id

namespace Match.Fits

variable {rules : List Rule} {m : Match}

theorem length_take (h : m.Fits rules budget offset t) : (t.take m.length).length = m.length :=
  List.length_take_of_le h.length_le

/-- What a token reads is not empty. -/
theorem take_ne_nil (h : m.Fits rules budget offset t) : t.take m.length ≠ [] := by
  rw [← List.length_pos_iff, h.length_take]
  exact h.length_pos

end Match.Fits

theorem Rule.fits_of_match? {rules : List Rule} {r : Rule} {index : Nat} {literals : List Delimited}
    {m : Match} (hr : r ∈ rules) (hforms : ∀ form ∈ r.matcher.interpolations, form.opener ≠ [])
    (h : r.match? index literals budget offset t = some m) : m.Fits rules budget offset t := by
  rw [match?_eq] at h
  split at h
  · cases h
  next found hfound =>
  split at h
  · cases h
  next hpos =>
  cases h
  have hfits := Matcher.fits_of_match? hforms hfound
  exact ⟨Nat.pos_of_ne_zero hpos, hfits.length_le, hfits.zones,
    fun z hz => ⟨(hfits.forms z hz).1, r, hr, (hfits.forms z hz).2⟩, fun id hid => ⟨r, hr, hid⟩⟩

theorem Match.fits_unclassified {rules : List Rule} (h : t ≠ []) :
    unclassified.Fits rules budget offset t :=
  ⟨Nat.one_pos, List.length_pos_iff.mpr h, trivial, by simp [unclassified],
    by simp [unclassified]⟩

namespace Grammar

theorem fits_of_firstOf {rules : List Rule} {literals : List Delimited} {m : Match}
    (hforms : ∀ r ∈ rules, ∀ form ∈ r.matcher.interpolations, form.opener ≠ [])
    {index : Nat} {later : List Rule} (hlater : ∀ r ∈ later, r ∈ rules)
    (h : firstOf literals budget offset t index later = some m) :
    m.Fits rules budget offset t := by
  induction later generalizing index with
  | nil => cases h
  | cons r rest ih =>
    obtain ⟨hr, hrest⟩ := List.forall_mem_cons.mp hlater
    rw [firstOf_cons] at h
    split at h
    next m' hm =>
      cases h
      exact Rule.fits_of_match? hr (hforms r hr) hm
    next => exact ih hrest h

/-- Where no rule reads anything, none gives a token. -/
theorem firstOf_eq_none_iff {literals : List Delimited} {index : Nat} {rules : List Rule} :
    firstOf literals budget offset t index rules = none ↔
      ∀ r ∈ rules, ¬r.matcher.Reads literals budget offset t := by
  induction rules generalizing index with
  | nil => simp
  | cons r rest ih =>
    rw [firstOf_cons, List.forall_mem_cons, ← Rule.match?_eq_none_iff]
    rcases r.match? index literals budget offset t with _ | m
    · exact ih.trans (and_iff_right rfl).symm
    · exact iff_of_false nofun fun h => nomatch h.1

theorem length_ne_zero_of_firstOf {literals : List Delimited} {index : Nat} {rules : List Rule}
    {m : Match} (h : firstOf literals budget offset t index rules = some m) : m.length ≠ 0 := by
  induction rules generalizing index with
  | nil => cases h
  | cons r rest ih =>
    rw [firstOf_cons] at h
    split at h
    next m' hm =>
      cases h
      rw [Rule.match?_eq] at hm
      split at hm
      · cases hm
      split at hm
      · cases hm
      next hne =>
        cases hm
        exact hne
    next => exact ih h

/-- **The rule of a token is the first that reads something.** -/
theorem exists_rule_of_firstOf {literals : List Delimited} {index : Nat} {rules : List Rule}
    {m : Match} (h : firstOf literals budget offset t index rules = some m) :
    ∃ k r found, rules[k]? = some r ∧ r.matcher.match? literals budget offset t = some found ∧
      m = ⟨some (index + k), r.kind, r.action, found.length, found.zones, found.diagnostics⟩ ∧
      ∀ j < k, ∀ r', rules[j]? = some r' → ¬r'.matcher.Reads literals budget offset t := by
  induction rules generalizing index with
  | nil => cases h
  | cons r rest ih =>
    rw [firstOf_cons] at h
    split at h
    next m' hm =>
      cases h
      rw [Rule.match?_eq] at hm
      split at hm
      · cases hm
      next found hfound =>
      split at hm
      · cases hm
      cases hm
      exact ⟨0, r, found, rfl, hfound, rfl, fun j hj => absurd hj (Nat.not_lt_zero j)⟩
    next hm =>
      obtain ⟨k, r', found, hr', hfound, rfl, hearlier⟩ := ih h
      refine ⟨k + 1, r', found, hr', hfound, by rw [Nat.add_right_comm, Nat.add_assoc], ?_⟩
      rintro (_ | j) hj r'' hr''
      · cases hr''
        exact Rule.match?_eq_none_iff.mp hm
      · exact hearlier j (Nat.lt_of_succ_lt_succ hj) r'' hr''

/-- **The token at the start of a text reads something**, whatever the rules are. -/
theorem length_firstMatch_pos (g : Grammar) (budget offset : Nat) (t : Text) :
    0 < (g.firstMatch budget offset t).length := by
  rw [firstMatch_eq]
  cases hfound : firstOf g.literals budget offset t 0 g.rules with
  | none => exact Nat.one_pos
  | some m => exact Nat.pos_of_ne_zero (length_ne_zero_of_firstOf hfound)

/-- **The token at the start of a nonempty text fits it.** -/
theorem fits_firstMatch {g : Grammar}
    (hforms : ∀ r ∈ g.rules, ∀ form ∈ r.matcher.interpolations, form.opener ≠ []) (h : t ≠ []) :
    (g.firstMatch budget offset t).Fits g.rules budget offset t := by
  rw [firstMatch_eq]
  cases hfound : firstOf g.literals budget offset t 0 g.rules with
  | none => exact Match.fits_unclassified h
  | some m => exact fits_of_firstOf hforms (fun r hr => hr) hfound

end Grammar

/-! ### In a valid set -/

namespace Match.Fits

variable {s : GrammarSet} {g : Grammar} {m : Match}

/-- The grammars that the zones of a token name can be looked up. -/
theorem known_of_mem_zones (hs : s.Valid) (hg : g ∈ s.grammars)
    (h : m.Fits g.rules budget offset t) {z : Zone} (hz : z ∈ m.zones) {id : String}
    (hid : z.grammar = some id) : ∃ g, s.get? id = some g := by
  obtain ⟨-, r, hr, form, hform, heq⟩ := h.forms z hz
  exact GrammarSet.exists_get? (((hs g hg r hr).forms form hform).grammar id (heq ▸ hid))

/-- The grammar that a token enters can be looked up. -/
theorem known_of_target (hs : s.Valid) (hg : g ∈ s.grammars) (h : m.Fits g.rules budget offset t)
    {id : String} (hid : m.action.bind (·.target) = some id) : ∃ g, s.get? id = some g := by
  obtain ⟨r, hr, htarget⟩ := h.action id hid
  exact GrammarSet.exists_get? ((hs g hg r hr).target id htarget)

end Match.Fits

/-- The token at the start of a nonempty text fits it, for a grammar of a valid set. -/
theorem GrammarSet.Valid.fits_firstMatch {s : GrammarSet} (hs : s.Valid) {g : Grammar}
    (hg : g ∈ s.grammars) (h : t ≠ []) :
    (g.firstMatch budget offset t).Fits g.rules budget offset t :=
  g.fits_firstMatch (fun r hr form hform => ((hs g hg r hr).forms form hform).opener_ne_nil) h

end Polylex
