import Polylex.Grammar.Set

/-!
# What a validated set promises

`Polylex.GrammarSet.build` looks for the first defect. This file says what it means that
there is none: every rule is *usable* (`Polylex.Rule.Usable`), which is to say that its
matcher does not match without reading, that its forms of embedded expression have
delimiters, and that every name it mentions is the name of a grammar of the set.

* `Polylex.Rule.defect?_eq_none_iff`: the checks of a rule find nothing exactly if the rule
  is usable;
* `Polylex.GrammarSet.build_eq_ok_iff`: a list of grammars can be built exactly if no name is
  repeated and all rules are usable;
* `Polylex.GrammarSet.exists_get?`: every known name can be looked up.
-/

namespace Polylex

namespace Interpolation

/-- The delimiter that opens an expression. -/
def opener : Interpolation → Text
  | braced o _ _ => o
  | sigil mark _ => [mark]

/-- A form that can be used: its delimiters are there, and its grammar is known. -/
structure Usable (known : String → Bool) (form : Interpolation) : Prop where
  delimiters : ∀ opener closer g, form = braced opener closer g → opener ≠ [] ∧ closer ≠ []
  grammar : ∀ id, form.grammar = some id → known id = true

variable {known : String → Bool} {form : Interpolation}

theorem Usable.opener_ne_nil (h : form.Usable known) : form.opener ≠ [] := by
  cases form with
  | braced o c g => exact (h.delimiters o c g rfl).1
  | sigil mark g => exact List.cons_ne_nil mark []

/-- Once the delimiters are there, what is left of the check is the look-up of the name. -/
theorem defect?_eq_none_iff_of_delimiters
    (h : ∀ opener closer g, form = braced opener closer g → opener ≠ [] ∧ closer ≠ []) :
    form.defect? known = none ↔ ∀ id, form.grammar = some id → known id = true := by
  cases form with
  | braced o c g =>
    obtain ⟨ho, hc⟩ := h o c g rfl
    cases g <;> simp [defect?, Interpolation.grammar, ho, hc]
  | sigil mark g => cases g <;> simp [defect?, Interpolation.grammar]

theorem defect?_eq_none_iff : form.defect? known = none ↔ form.Usable known := by
  constructor
  · intro h
    have hdelimiters : ∀ opener closer g, form = braced opener closer g →
        opener ≠ [] ∧ closer ≠ [] := by
      rintro o c g rfl
      constructor <;> rintro rfl <;> simp [defect?] at h
    exact ⟨hdelimiters, (defect?_eq_none_iff_of_delimiters hdelimiters).mp h⟩
  · intro h
    exact (defect?_eq_none_iff_of_delimiters h.delimiters).mpr h.grammar

end Interpolation

namespace Rule

/-- A rule that can be used: it reads something when it matches, all grammars it names are
known, its forms of embedded expression can be used, and no flag could begin a label. -/
structure Usable (known : String → Bool) (r : Rule) : Prop where
  reads : r.matcher.canMatchEmpty = false
  target : ∀ id, r.target = some id → known id = true
  forms : ∀ form ∈ r.matcher.interpolations, form.Usable known
  flags : ∀ c ∈ r.matcher.heredocFlags, overlapsLabel c = false

variable {known : String → Bool} {r : Rule}

theorem target_filter_eq_none_iff :
    r.target.filter (!known ·) = none ↔ ∀ id, r.target = some id → known id = true := by
  cases r.target with
  | none => simp
  | some id => simp [Option.filter]

/-- **The checks of a rule find nothing exactly if the rule is usable.** -/
theorem defect?_eq_none_iff : r.defect? known = none ↔ r.Usable known := by
  have hforms : r.matcher.interpolations.findSome? (·.defect? known) = none ↔
      ∀ form ∈ r.matcher.interpolations, form.Usable known := by
    simp only [List.findSome?_eq_none_iff, Interpolation.defect?_eq_none_iff]
  constructor
  · intro h
    rw [defect?] at h
    split at h
    · cases h
    next hreads =>
    split at h
    · cases h
    next htarget =>
    split at h
    · cases h
    next hnone =>
    refine ⟨by simpa using hreads, target_filter_eq_none_iff.mp htarget, hforms.mp hnone, ?_⟩
    simpa using h
  · intro h
    have hflags : ¬r.matcher.heredocFlags.any overlapsLabel = true := by
      simpa using h.flags
    simp only [defect?, h.reads, target_filter_eq_none_iff.mpr h.target, hforms.mpr h.forms,
      if_neg hflags, Bool.false_eq_true, if_false]

end Rule

namespace Grammar

/-- The grammar has no defect exactly if none of its rules has one. -/
theorem firstDefect?_eq_none_iff {known : String → Bool} (index : Nat) {rules : List Rule} :
    firstDefect? known index rules = none ↔ ∀ r ∈ rules, r.Usable known := by
  induction rules generalizing index with
  | nil => simp [firstDefect?]
  | cons r rest ih =>
    rw [List.forall_mem_cons, ← Rule.defect?_eq_none_iff, ← ih (index + 1), firstDefect?]
    cases r.defect? known <;> simp

theorem error?_eq_none_iff {known : String → Bool} {g : Grammar} :
    g.error? known = none ↔ ∀ r ∈ g.rules, r.Usable known := by
  rw [error?, Option.map_eq_none_iff, firstDefect?_eq_none_iff]

end Grammar

namespace GrammarSet

/-- All rules of all grammars of the set are usable. -/
def Valid (s : GrammarSet) : Prop := ∀ g ∈ s.grammars, ∀ r ∈ g.rules, r.Usable s.contains

variable {s : GrammarSet} {grammars : List Grammar}

/-- **A list of grammars can be built exactly if no name is repeated and all rules are usable.** -/
theorem build_eq_ok_iff :
    build grammars = .ok s ↔ firstRepeated? [] grammars = none ∧ s = ⟨grammars⟩ ∧ s.Valid := by
  have herror : grammars.findSome? (·.error? (contains ⟨grammars⟩)) = none ↔
      (⟨grammars⟩ : GrammarSet).Valid := by
    simp only [List.findSome?_eq_none_iff, Grammar.error?_eq_none_iff]
    rfl
  rw [build]
  cases firstRepeated? [] grammars with
  | some id => exact ⟨nofun, nofun⟩
  | none =>
    dsimp only
    constructor
    · intro h
      split at h
      · cases h
      next hnone =>
        cases h
        exact ⟨rfl, rfl, herror.mp hnone⟩
    · rintro ⟨-, rfl, hvalid⟩
      rw [herror.mpr hvalid]

/-- **A set that has been built is valid.** -/
theorem valid_of_build (h : build grammars = .ok s) : s.Valid := (build_eq_ok_iff.mp h).2.2

/-- The set of a list of grammars holds these grammars. -/
theorem build_eq_of_isOk (h : (build grammars).isOk = true) : build grammars = .ok ⟨grammars⟩ := by
  rcases hbuild : build grammars with e | s
  · rw [hbuild] at h
    cases h
  · obtain ⟨-, rfl, -⟩ := build_eq_ok_iff.mp hbuild
    rfl

theorem mem_of_get? {id : String} {g : Grammar} (h : s.get? id = some g) : g ∈ s.grammars :=
  List.mem_of_find?_eq_some h

/-- A grammar is looked up by its own name. -/
theorem id_of_get? {id : String} {g : Grammar} (h : s.get? id = some g) : g.id = id := by
  simpa using List.find?_some h

theorem get?_eq_none {id : String} (h : s.contains id = false) : s.get? id = none := by
  rw [get?, List.find?_eq_none]
  simpa [contains] using h

/-- A known name can be looked up. -/
theorem exists_get? {id : String} (h : s.contains id = true) : ∃ g, s.get? id = some g := by
  rw [← Option.isSome_iff_exists, get?, List.find?_isSome]
  simpa [contains] using h

end GrammarSet

end Polylex
