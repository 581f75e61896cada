import Mathlib.Data.List.Nodup
import Polylex.Proofs.Validation

/-!
# Which defect is reported

A list of grammars can have many defects, and the search for them stops at one. This file says at
which one, without the search: a defect is the *first* of a list of checks, of forms, of rules or
of grammars if everything in front of it passes. There is one such statement for each thing that
is searched, and each refers to the one below it.

* `Polylex.Interpolation.FirstDefect`: of a form, its delimiters come before its grammar;
* `Polylex.Rule.FirstDefect`: of a rule, what it reads comes before the target of its action, then
  its forms in their order, then its flags;
* `Polylex.GrammarSet.FirstDefect`: of a list of grammars, the first name that is repeated comes
  before the defects of all rules, and these come in the order of the grammars and of their rules.

What passes is what was called usable before. Whether a name is known does not depend on where
the search is: all grammars of the list are known, those still to come as well.
-/

namespace Polylex

namespace Interpolation

/-- The first defect of a form of embedded expression. -/
inductive FirstDefect (known : String → Bool) : Interpolation → RuleDefect → Prop
  | delimiter {opener closer : Text} {g : Option String} (empty : opener = [] ∨ closer = []) :
      FirstDefect known (braced opener closer g) .emptyInterpolation
  | grammar {form : Interpolation} {id : String}
      (delimiters : ∀ opener closer g, form = braced opener closer g → opener ≠ [] ∧ closer ≠ [])
      (named : form.grammar = some id) (unknown : known id = false) :
      FirstDefect known form (.unknownGrammar id)

variable {known : String → Bool} {form : Interpolation} {d : RuleDefect}

theorem defect?_of_empty {opener closer : Text} {g : Option String}
    (h : opener = [] ∨ closer = []) :
    (braced opener closer g).defect? known = some .emptyInterpolation := by
  rcases h with rfl | rfl <;> simp [defect?]

theorem defect?_of_delimiters
    (h : ∀ opener closer g, form = braced opener closer g → opener ≠ [] ∧ closer ≠ []) :
    form.defect? known = (form.grammar.filter (!known ·)).map .unknownGrammar := by
  cases form with
  | braced o c g =>
    obtain ⟨ho, hc⟩ := h o c g rfl
    cases g with
    | none => simp [defect?, Interpolation.grammar, ho, hc]
    | some id =>
      cases hid : known id <;>
        simp [defect?, Interpolation.grammar, ho, hc, hid, Option.filter]
  | sigil mark g =>
    cases g with
    | none => rfl
    | some id =>
      cases hid : known id <;> simp [defect?, Interpolation.grammar, hid, Option.filter]

/-- **The check of a form finds its first defect.** -/
theorem defect?_eq_some_iff : form.defect? known = some d ↔ form.FirstDefect known d := by
  constructor
  · intro h
    by_cases hempty : ∃ opener closer g, form = braced opener closer g ∧ (opener = [] ∨ closer = [])
    · obtain ⟨o, c, g, rfl, hempty⟩ := hempty
      rw [defect?_of_empty hempty] at h
      cases h
      exact .delimiter hempty
    · have hdelimiters : ∀ opener closer g, form = braced opener closer g →
          opener ≠ [] ∧ closer ≠ [] := fun o c g hform =>
        not_or.mp fun h => hempty ⟨o, c, g, hform, h⟩
      rw [defect?_of_delimiters hdelimiters, Option.map_eq_some_iff] at h
      obtain ⟨id, hid, rfl⟩ := h
      obtain ⟨hnamed, hunknown⟩ := Option.filter_eq_some_iff.mp hid
      exact .grammar hdelimiters hnamed (by simpa using hunknown)
  · intro h
    cases h with
    | delimiter empty => exact defect?_of_empty empty
    | grammar delimiters named unknown =>
      rw [defect?_of_delimiters delimiters, named]
      simp [unknown]

end Interpolation

namespace Rule

/-- The first defect of a rule. -/
inductive FirstDefect (known : String → Bool) (r : Rule) : RuleDefect → Prop
  | reads (empty : r.matcher.canMatchEmpty = true) : FirstDefect known r .emptyMatch
  | target {id : String} (reads : r.matcher.canMatchEmpty = false) (named : r.target = some id)
      (unknown : known id = false) : FirstDefect known r (.unknownGrammar id)
  | form {earlier later : List Interpolation} {form : Interpolation} {d : RuleDefect}
      (reads : r.matcher.canMatchEmpty = false)
      (target : ∀ id, r.target = some id → known id = true)
      (split : r.matcher.interpolations = earlier ++ form :: later)
      (first : ∀ f ∈ earlier, f.Usable known) (defect : form.FirstDefect known d) :
      FirstDefect known r d
  | flags {c : Char} (reads : r.matcher.canMatchEmpty = false)
      (target : ∀ id, r.target = some id → known id = true)
      (forms : ∀ f ∈ r.matcher.interpolations, f.Usable known) (mem : c ∈ r.matcher.heredocFlags)
      (overlaps : overlapsLabel c = true) : FirstDefect known r .invalidHeredocFlags

variable {known : String → Bool} {r : Rule} {d : RuleDefect}

theorem target_filter_eq_some_iff {id : String} :
    r.target.filter (!known ·) = some id ↔ r.target = some id ∧ known id = false := by
  rw [Option.filter_eq_some_iff, Bool.not_eq_true']

/-- What is found in the forms is the defect of one of them, and those in front of it are usable. -/
theorem findSome?_forms_eq_some_iff {forms : List Interpolation} :
    forms.findSome? (·.defect? known) = some d ↔
      ∃ earlier form later, forms = earlier ++ form :: later ∧ form.FirstDefect known d ∧
        ∀ f ∈ earlier, f.Usable known := by
  simp only [List.findSome?_eq_some_iff, Interpolation.defect?_eq_some_iff,
    Interpolation.defect?_eq_none_iff]

/-- **The checks of a rule find its first defect.** -/
theorem defect?_eq_some_iff : r.defect? known = some d ↔ r.FirstDefect known d := by
  have hforms : r.matcher.interpolations.findSome? (·.defect? known) = none ↔
      ∀ form ∈ r.matcher.interpolations, form.Usable known := by
    simp only [List.findSome?_eq_none_iff, Interpolation.defect?_eq_none_iff]
  constructor
  · intro h
    rw [defect?] at h
    split at h
    next hempty =>
      cases h
      exact .reads hempty
    next hreads =>
    rw [Bool.not_eq_true] at hreads
    split at h
    next id htarget =>
      cases h
      obtain ⟨hnamed, hunknown⟩ := target_filter_eq_some_iff.mp htarget
      exact .target hreads hnamed hunknown
    next hnone =>
    have htarget := target_filter_eq_none_iff.mp hnone
    split at h
    next d' hfound =>
      cases h
      obtain ⟨earlier, form, later, hsplit, hdefect, hearlier⟩ :=
        findSome?_forms_eq_some_iff.mp hfound
      exact .form hreads htarget hsplit hearlier hdefect
    next hnone =>
    split at h
    next hany =>
      cases h
      obtain ⟨c, hc, hoverlaps⟩ := List.any_eq_true.mp hany
      exact .flags hreads htarget (hforms.mp hnone) hc hoverlaps
    · cases h
  · intro h
    cases h with
    | reads empty => rw [defect?, if_pos empty]
    | target reads named unknown =>
      simp only [defect?, reads, target_filter_eq_some_iff.mpr ⟨named, unknown⟩,
        Bool.false_eq_true, if_false]
    | form reads target split first defect =>
      have hfound := findSome?_forms_eq_some_iff.mpr ⟨_, _, _, split, defect, first⟩
      simp only [defect?, reads, target_filter_eq_none_iff.mpr target, hfound,
        Bool.false_eq_true, if_false]
    | flags reads target forms mem overlaps =>
      have hany : r.matcher.heredocFlags.any overlapsLabel = true :=
        List.any_eq_true.mpr ⟨_, mem, overlaps⟩
      simp only [defect?, reads, target_filter_eq_none_iff.mpr target, hforms.mpr forms, hany,
        Bool.false_eq_true, if_false, if_true]

end Rule

namespace Grammar

variable {known : String → Bool} {rules : List Rule} {g : Grammar}

/-- Usable rules are passed over. -/
theorem firstDefect?_append {earlier : List Rule} (h : ∀ r ∈ earlier, r.Usable known)
    (index : Nat) :
    firstDefect? known index (earlier ++ rules) =
      firstDefect? known (index + earlier.length) rules := by
  induction earlier generalizing index with
  | nil => rfl
  | cons r earlier ih =>
    obtain ⟨hr, hearlier⟩ := List.forall_mem_cons.mp h
    rw [List.cons_append, firstDefect?, Rule.defect?_eq_none_iff.mpr hr, List.length_cons,
      ← Nat.add_assoc, Nat.add_right_comm]
    exact ih hearlier (index + 1)

/-- **The search through a list of rules finds the first defect of the first rule that has one.** -/
theorem firstDefect?_eq_some_iff (index : Nat) {n : Nat} {d : RuleDefect} :
    firstDefect? known index rules = some (n, d) ↔
      ∃ earlier r later, rules = earlier ++ r :: later ∧ (∀ r' ∈ earlier, r'.Usable known) ∧
        r.FirstDefect known d ∧ n = index + earlier.length := by
  constructor
  · intro h
    induction rules generalizing index with
    | nil => cases h
    | cons r rest ih =>
      rw [firstDefect?] at h
      cases hr : r.defect? known with
      | some d' =>
        rw [hr] at h
        cases h
        exact ⟨[], r, rest, rfl, List.forall_mem_nil _, Rule.defect?_eq_some_iff.mp hr, rfl⟩
      | none =>
        rw [hr] at h
        obtain ⟨earlier, s, later, rfl, hearlier, hdefect, rfl⟩ := ih (index + 1) h
        refine ⟨r :: earlier, s, later, rfl,
          List.forall_mem_cons.mpr ⟨Rule.defect?_eq_none_iff.mp hr, hearlier⟩, hdefect, ?_⟩
        rw [List.length_cons]
        omega
  · rintro ⟨earlier, r, later, rfl, hearlier, hdefect, rfl⟩
    rw [firstDefect?_append hearlier, firstDefect?, Rule.defect?_eq_some_iff.mpr hdefect]

theorem error?_eq_some_iff {e : GrammarError} :
    g.error? known = some e ↔
      ∃ earlier r later d, g.rules = earlier ++ r :: later ∧ (∀ r' ∈ earlier, r'.Usable known) ∧
        r.FirstDefect known d ∧ e = .inRule g.id earlier.length d := by
  rw [error?, Option.map_eq_some_iff]
  constructor
  · rintro ⟨⟨n, d⟩, hfound, rfl⟩
    obtain ⟨earlier, r, later, hsplit, hearlier, hdefect, rfl⟩ :=
      (firstDefect?_eq_some_iff 0).mp hfound
    exact ⟨earlier, r, later, d, hsplit, hearlier, hdefect, by rw [Nat.zero_add]⟩
  · rintro ⟨earlier, r, later, d, hsplit, hearlier, hdefect, rfl⟩
    exact ⟨(earlier.length, d), (firstDefect?_eq_some_iff 0).mpr
      ⟨earlier, r, later, hsplit, hearlier, hdefect, (Nat.zero_add _).symm⟩, rfl⟩

end Grammar

namespace GrammarSet

variable {grammars : List Grammar}

/-- The first defect of a list of grammars. -/
inductive FirstDefect (grammars : List Grammar) : GrammarError → Prop
  | repeated {before after : List Grammar} {g : Grammar} (split : grammars = before ++ g :: after)
      (first : (before.map (·.id)).Nodup) (mem : g.id ∈ before.map (·.id)) :
      FirstDefect grammars (.duplicateGrammar g.id)
  | rule {before after : List Grammar} {g : Grammar} {earlier later : List Rule} {r : Rule}
      {d : RuleDefect} (nodup : (grammars.map (·.id)).Nodup)
      (split : grammars = before ++ g :: after)
      (first : ∀ g' ∈ before, ∀ r' ∈ g'.rules, r'.Usable (contains ⟨grammars⟩))
      (rules : g.rules = earlier ++ r :: later)
      (earliest : ∀ r' ∈ earlier, r'.Usable (contains ⟨grammars⟩))
      (defect : r.FirstDefect (contains ⟨grammars⟩) d) :
      FirstDefect grammars (.inRule g.id earlier.length d)

/-- No name is repeated if the names differ from each other and from those that have been seen. -/
theorem firstRepeated?_eq_none_iff {seen : List String} :
    firstRepeated? seen grammars = none ↔
      (grammars.map (·.id)).Nodup ∧ ∀ g ∈ grammars, g.id ∉ seen := by
  induction grammars generalizing seen with
  | nil => simp [firstRepeated?]
  | cons g rest ih =>
    rw [firstRepeated?, List.map_cons, List.nodup_cons, List.forall_mem_cons]
    by_cases hseen : g.id ∈ seen
    · simp [hseen]
    · rw [if_neg (by simpa using hseen), ih]
      have hdiffer : (∀ g' ∈ rest, g'.id ∉ g.id :: seen) ↔
          g.id ∉ rest.map (·.id) ∧ ∀ g' ∈ rest, g'.id ∉ seen := by
        simp [not_or, forall_and]
      rw [hdiffer, and_iff_right hseen, and_left_comm, and_assoc]

theorem firstRepeated?_nil_eq_none_iff :
    firstRepeated? [] grammars = none ↔ (grammars.map (·.id)).Nodup := by
  simp [firstRepeated?_eq_none_iff]

/-- Names that are not repeated are kept in mind. -/
theorem firstRepeated?_append {before : List Grammar} {seen : List String}
    (h : firstRepeated? seen before = none) :
    firstRepeated? seen (before ++ grammars) =
      firstRepeated? ((before.map (·.id)).reverse ++ seen) grammars := by
  induction before generalizing seen with
  | nil => rfl
  | cons g before ih =>
    rw [firstRepeated?] at h
    split at h
    · cases h
    next hseen =>
      rw [List.cons_append, firstRepeated?, if_neg hseen, ih h]
      simp

theorem exists_of_firstRepeated?_eq_some {seen : List String} {id : String}
    (h : firstRepeated? seen grammars = some id) :
    ∃ before g after, grammars = before ++ g :: after ∧ firstRepeated? seen before = none ∧
      (g.id ∈ before.map (·.id) ∨ g.id ∈ seen) ∧ id = g.id := by
  induction grammars generalizing seen with
  | nil => cases h
  | cons g rest ih =>
    rw [firstRepeated?] at h
    split at h
    next hseen =>
      cases h
      exact ⟨[], g, rest, rfl, rfl, Or.inr (List.contains_iff_mem.mp hseen), rfl⟩
    next hseen =>
      obtain ⟨before, g', after, rfl, hnone, hmem, rfl⟩ := ih h
      refine ⟨g :: before, g', after, rfl, ?_, ?_, rfl⟩
      · rw [firstRepeated?, if_neg hseen, hnone]
      · rw [List.mem_cons] at hmem
        rw [List.map_cons, List.mem_cons]
        tauto

/-- **The search for a repeated name finds the first grammar that has the name of one in front of
it**, where all names differ. -/
theorem firstRepeated?_eq_some_iff {id : String} :
    firstRepeated? [] grammars = some id ↔
      ∃ before g after, grammars = before ++ g :: after ∧ (before.map (·.id)).Nodup ∧
        g.id ∈ before.map (·.id) ∧ id = g.id := by
  constructor
  · intro h
    obtain ⟨before, g, after, hsplit, hnone, hmem, hid⟩ := exists_of_firstRepeated?_eq_some h
    exact ⟨before, g, after, hsplit, firstRepeated?_nil_eq_none_iff.mp hnone,
      hmem.resolve_right nofun, hid⟩
  · rintro ⟨before, g, after, rfl, hbefore, hmem, rfl⟩
    have hseen : ((before.map Grammar.id).reverse ++ []).contains g.id = true := by
      simpa using hmem
    rw [firstRepeated?_append (firstRepeated?_nil_eq_none_iff.mpr hbefore), firstRepeated?,
      if_pos hseen]

/-! ### Building a set -/

theorem contains_eq_true_iff {s : GrammarSet} {id : String} :
    s.contains id = true ↔ id ∈ s.ids := by
  simp [contains, ids]

/-- A grammar of a set in which no name is repeated is found under its name. -/
theorem get?_id {s : GrammarSet} {g : Grammar} (hnodup : s.ids.Nodup) (hg : g ∈ s.grammars) :
    s.get? g.id = some g := by
  obtain ⟨g', hg'⟩ := exists_get? (contains_eq_true_iff.mpr (List.mem_map_of_mem hg))
  have heq : g' = g :=
    List.inj_on_of_nodup_map hnodup (mem_of_get? hg') hg (id_of_get? hg')
  rw [hg', heq]

/-- **The error is the first defect.** -/
theorem build_eq_error_iff {e : GrammarError} :
    build grammars = .error e ↔ FirstDefect grammars e := by
  constructor
  · intro h
    rw [build] at h
    split at h
    next id hid =>
      cases h
      obtain ⟨before, g, after, hsplit, hbefore, hmem, rfl⟩ := firstRepeated?_eq_some_iff.mp hid
      exact .repeated hsplit hbefore hmem
    next hnone =>
    dsimp only at h
    split at h
    next e' hfound =>
      cases h
      obtain ⟨before, g, after, hsplit, herror, hbefore⟩ := List.findSome?_eq_some_iff.mp hfound
      obtain ⟨earlier, r, later, d, hrules, hearlier, hdefect, rfl⟩ :=
        Grammar.error?_eq_some_iff.mp herror
      exact .rule (firstRepeated?_nil_eq_none_iff.mp hnone) hsplit
        (fun g' hg' => Grammar.error?_eq_none_iff.mp (hbefore g' hg')) hrules hearlier hdefect
    · cases h
  · intro h
    cases h with
    | repeated split first mem =>
      have hid := firstRepeated?_eq_some_iff.mpr ⟨_, _, _, split, first, mem, rfl⟩
      simp only [build, hid]
    | rule nodup split first rules earliest defect =>
      have hnone := firstRepeated?_nil_eq_none_iff.mpr nodup
      have herror := Grammar.error?_eq_some_iff.mpr ⟨_, _, _, _, rules, earliest, defect, rfl⟩
      have hfound := List.findSome?_eq_some_iff.mpr
        ⟨_, _, _, split, herror, fun g' hg' => Grammar.error?_eq_none_iff.mpr (first g' hg')⟩
      simp only [build, hnone, hfound]

/-- **Building a set succeeds if and only if there is nothing wrong with it, and reports the first
defect otherwise.** A set is built if no name is repeated and all rules are usable, with the names
of all grammars of the list as the known ones. It has the names in the order of the list, and
every grammar is found under its own. -/
theorem build_reports_first_defect (grammars : List Grammar) :
    (∀ s, build grammars = .ok s ↔ (grammars.map (·.id)).Nodup ∧
      (∀ g ∈ grammars, ∀ r ∈ g.rules, r.Usable (contains ⟨grammars⟩)) ∧ s = ⟨grammars⟩) ∧
    (∀ s, build grammars = .ok s → s.ids = grammars.map (·.id) ∧
      (∀ g ∈ grammars, s.get? g.id = some g) ∧
      ∀ id, id ∉ grammars.map (·.id) → s.get? id = none) ∧
    ∀ e, build grammars = .error e ↔ FirstDefect grammars e := by
  have hok (s : GrammarSet) : build grammars = .ok s ↔ (grammars.map (·.id)).Nodup ∧
      (∀ g ∈ grammars, ∀ r ∈ g.rules, r.Usable (contains ⟨grammars⟩)) ∧ s = ⟨grammars⟩ := by
    rw [build_eq_ok_iff, firstRepeated?_nil_eq_none_iff]
    constructor
    · rintro ⟨hnodup, rfl, hvalid⟩
      exact ⟨hnodup, hvalid, rfl⟩
    · rintro ⟨hnodup, hvalid, rfl⟩
      exact ⟨hnodup, rfl, hvalid⟩
  refine ⟨hok, fun s hs => ?_, fun e => build_eq_error_iff⟩
  obtain ⟨hnodup, -, rfl⟩ := (hok s).mp hs
  refine ⟨rfl, fun g hg => get?_id hnodup hg, fun id hid => get?_eq_none ?_⟩
  rw [← Bool.not_eq_true, contains_eq_true_iff]
  exact hid

/-- Two grammars that name each other, and the second one with an expression that has no closing
delimiter. Its own grammar is not known either, but that is not what is reported. -/
theorem build_reports_first_defect_mutual :
    let page : Grammar := ⟨"page", [⟨.tag, .literal ['<'], some (.enter "script")⟩], false⟩
    let label : Interpolation := .sigil '#' (some "page")
    let spec (forms : List Interpolation) : Delimited := ⟨['"'], ['"'], none, false, forms⟩
    let script (forms : List Interpolation) : Grammar :=
      ⟨"script", [.keyword ['i', 'f'], ⟨.string, .delimited (spec forms), none⟩], false⟩
    let complete := script [label, .braced ['{'] ['}'] none]
    let broken := script [label, .braced ['{'] [] (some "style")]
    (build [page, complete] = .ok ⟨[page, complete]⟩ ∧
      get? ⟨[page, complete]⟩ "script" = some complete) ∧
    build [page, broken] = .error (.inRule "script" 1 .emptyInterpolation) ∧
    FirstDefect [page, broken] (.inRule "script" 1 .emptyInterpolation) := by
  intro page label spec script complete broken
  have hok : build [page, complete] = .ok ⟨[page, complete]⟩ := by rfl
  have herror : build [page, broken] = .error (.inRule "script" 1 .emptyInterpolation) := by rfl
  obtain ⟨-, hbuilt, -⟩ := build_reports_first_defect [page, complete]
  obtain ⟨-, hfound, -⟩ := hbuilt _ hok
  exact ⟨⟨hok, hfound complete (by simp)⟩, herror,
    ((build_reports_first_defect [page, broken]).2.2 _).mp herror⟩

end GrammarSet

end Polylex
