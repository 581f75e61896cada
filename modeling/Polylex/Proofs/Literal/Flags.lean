import Polylex.Proofs.Literal.Division
import Polylex.Proofs.Literal.Terminator

/-!
# Flags and the labels behind them

A heredoc has its flag right in front of its label, so a flag that could begin a label would be
taken from it. A set of grammars is refused if a flag is an underscore, alphabetic or a number.
What begins a label, however, is an underscore or a character that begins an identifier, and the
two classes are not the same (`Polylex.beginsLabel_and_not_overlapsLabel_iff`): two symbols begin
identifiers by decree without being alphabetic, and there are the letters that the categories do
not know yet. These, and no others, can be flags and begin a label
(`Polylex.Unicode.beginsUnlisted`).

So a label is read whole behind the introducer exactly if its first character is not a flag, and
that is sure if it is none of the characters above (`Polylex.Heredoc.whole_label_iff_no_flag`). With
one of them it does go wrong (`Polylex.Heredoc.flag_taken_from_label`).
-/

namespace Polylex

open Literal

namespace Unicode

namespace RangeTable

/-- Two tables without a common code point: every range of one is in front of every range of the
other, or behind it. -/
def Apart (a b : RangeTable) : Prop := ∀ r ∈ a, ∀ s ∈ b, r.2 < s.1 ∨ s.2 < r.1

instance (a b : RangeTable) : Decidable (Apart a b) :=
  inferInstanceAs (Decidable (∀ r ∈ a, ∀ s ∈ b, r.2 < s.1 ∨ s.2 < r.1))

variable {a b : RangeTable} {n : Nat}

theorem exists_range_of_covers (h : a.covers n = true) : ∃ r ∈ a, r.1 ≤ n ∧ n ≤ r.2 := by
  induction a with
  | nil => cases h
  | cons range rest ih =>
    rw [covers, Bool.and_eq_true, Bool.or_eq_true, decide_eq_true_iff, decide_eq_true_iff] at h
    rcases h with ⟨hlow, hhigh | hrest⟩
    · exact ⟨range, List.mem_cons_self, hlow, hhigh⟩
    · obtain ⟨r, hr, hin⟩ := ih hrest
      exact ⟨r, List.mem_cons_of_mem _ hr, hin⟩

theorem Apart.not_covers (h : Apart a b) (ha : a.covers n = true) : b.covers n = false := by
  refine Bool.eq_false_iff.mpr fun hb => ?_
  obtain ⟨r, hr, hlow, hhigh⟩ := exists_range_of_covers ha
  obtain ⟨s, hs, hlow', hhigh'⟩ := exists_range_of_covers hb
  rcases h r hr s hs with hlt | hlt <;> omega

end RangeTable

/-! ### Characters that begin a label and may be flags -/

/-- The characters that begin an identifier and are neither alphabetic nor numbers: the two symbols
`℘` and `℮`, and the letters that the categories do not hold yet. -/
def beginsUnlisted (c : Char) : Bool := c == '℘' || c == '℮' || recentLetters.covers c.toNat

/-- What begins an identifier by decree is a mark that carries a sound, or one of two symbols. -/
theorem of_addedStarts {c : Char} (h : addedStarts.covers c.toNat = true) :
    isAlphabetic c = true ∨ beginsUnlisted c = true := by
  have hall : ∀ n ∈ addedStarts.points,
      isAlphabetic (Char.ofNat n) = true ∨ beginsUnlisted (Char.ofNat n) = true := by
    decide +kernel
  have hc := hall c.toNat (RangeTable.mem_points_of_covers h)
  rwa [Char.ofNat_toNat] at hc

/-- What begins an identifier is alphabetic or unlisted. -/
theorem isAlphabetic_or_of_isIdentifierStart {c : Char} (h : isIdentifierStart c = true) :
    isAlphabetic c = true ∨ beginsUnlisted c = true := by
  rw [isIdentifierStart, Bool.and_eq_true, Bool.or_eq_true, Bool.or_eq_true, isIdentifierLetter,
    Bool.or_eq_true] at h
  rcases h with ⟨((hletter | hrecent) | hnumber) | hadded, -⟩
  · exact .inl (by rw [isAlphabetic, hletter, Bool.true_or, Bool.true_or])
  · exact .inr (by rw [beginsUnlisted, hrecent, Bool.or_true])
  · exact .inl (by rw [isAlphabetic, hnumber, Bool.or_true, Bool.true_or])
  · exact of_addedStarts hadded

/-- The recent letters begin identifiers, and no other table holds them. -/
theorem of_recentLetters {c : Char} (h : recentLetters.covers c.toNat = true) :
    isIdentifierStart c = true ∧ isAlphanumeric c = false := by
  have hnone (table : RangeTable) (happart : recentLetters.Apart table) :
      table.covers c.toNat = false := happart.not_covers h
  constructor
  · rw [isIdentifierStart, isIdentifierLetter, h, hnone droppedLetters (by decide),
      hnone inwardLetters (by decide), Bool.or_true]
    rfl
  · rw [isAlphanumeric, isAlphabetic, isNumber, isLetter, isLetterNumber, isDecimalDigit,
      isOtherNumber, hnone planeZeroLetters (by decide +kernel),
      hnone higherLetters (by decide +kernel),
      hnone letterNumbers (by decide +kernel),
      hnone alphabeticMarks (by decide +kernel),
      hnone decimalDigits (by decide +kernel),
      hnone otherNumbers (by decide +kernel)]
    rfl

end Unicode

open Unicode

/-- **What may be a flag and begins a label** is a character that begins an identifier and is
neither alphabetic nor a number. -/
theorem beginsLabel_and_not_overlapsLabel_iff {c : Char} :
    beginsLabel c = true ∧ Rule.overlapsLabel c = false ↔ beginsUnlisted c = true := by
  constructor
  · rintro ⟨hbegins, hflag⟩
    rw [Rule.overlapsLabel, Bool.or_eq_false_iff, isAlphanumeric, Bool.or_eq_false_iff] at hflag
    obtain ⟨hunderscore, halphabetic, -⟩ := hflag
    rw [beginsLabel, hunderscore, Bool.false_or] at hbegins
    refine (isAlphabetic_or_of_isIdentifierStart hbegins).resolve_left fun h => ?_
    rw [h] at halphabetic
    cases halphabetic
  · intro h
    rw [beginsUnlisted, Bool.or_eq_true, Bool.or_eq_true, beq_iff_eq, beq_iff_eq] at h
    rcases h with (rfl | rfl) | hrecent
    · decide +kernel
    · decide +kernel
    · obtain ⟨hstart, halphanumeric⟩ := of_recentLetters hrecent
      have hne : (c == '_') = false := by
        refine beq_eq_false_iff_ne.mpr ?_
        rintro rfl
        exact absurd hrecent (by decide)
      rw [beginsLabel, Rule.overlapsLabel, hstart, halphanumeric, hne]
      exact ⟨rfl, rfl⟩

namespace Heredoc

variable {spec : Heredoc} {label rest : Text}

/-! ### Labels behind an introducer -/

/-- A label behind an introducer, without a flag and without quotes, is the whole label if its
first character is not a flag. -/
theorem begins_of_not_mem_flags (hlabel : IsLabel label rest)
    (hflags : ∀ c ∈ label.head?, c ∉ spec.flags) :
    spec.Begins (spec.intro ++ label ++ rest) none none label rest :=
  ⟨by simp [introducer], nofun, fun _ => hflags, nofun, hlabel⟩

/-- **A label is read whole** exactly if its first character is not a flag. -/
theorem header?_whole_iff (hlabel : IsLabel label rest) :
    header? spec (spec.intro ++ label ++ rest) =
        some ⟨false, none, label, (spec.intro ++ label).length⟩ ↔
      ∀ c ∈ label.head?, c ∉ spec.flags := by
  constructor
  · intro h
    obtain ⟨flag, quote, label', rest', hbegins, heq⟩ := header?_eq_some_iff.mp h
    obtain rfl : flag = none := by
      have hindented : false = flag.isSome := congrArg HeredocHeader.indented heq
      simpa using hindented.symm
    obtain rfl : none = quote := congrArg HeredocHeader.quote heq
    obtain rfl : label = label' := congrArg HeredocHeader.label heq
    exact hbegins.flag_taken rfl
  · intro hflags
    have hbegins := begins_of_not_mem_flags hlabel hflags
    refine header?_eq_some_iff.mpr ⟨none, none, label, rest, hbegins, ?_⟩
    simp [headerOf, introducer]

/-- A rule of a set that has been built has no flag that the check refuses. -/
theorem not_overlapsLabel_of_build {grammars : List Grammar} {set : GrammarSet} {g : Grammar}
    {r : Rule} (hbuild : GrammarSet.build grammars = .ok set) (hg : g ∈ set.grammars)
    (hr : r ∈ g.rules) (hspec : r.matcher = .heredoc spec) :
    ∀ c ∈ spec.flags, Rule.overlapsLabel c = false := by
  have hflags := (GrammarSet.valid_of_build hbuild g hg r hr).flags
  rwa [hspec] at hflags

/-- **Which labels a flag may be taken from.** Take a heredoc rule of a set that has been built. A
flag of it begins a label exactly if it begins an identifier without being alphabetic or a number;
so two symbols and the recent letters can do so, and nothing else. A label that stands behind the
introducer is read whole, and without a flag, exactly if its first character is not a flag. This is
sure if that character is none of those: then there is a heredoc, and it ends with a line that
holds the label without an indent. -/
theorem whole_label_iff_no_flag {grammars : List Grammar} {set : GrammarSet} {g : Grammar}
    {r : Rule} (hbuild : GrammarSet.build grammars = .ok set) (hg : g ∈ set.grammars)
    (hr : r ∈ g.rules) (hspec : r.matcher = .heredoc spec) :
    (∀ c ∈ spec.flags, ∀ t, labelLength (c :: t) ≠ 0 ↔ beginsUnlisted c = true) ∧
    ∀ label rest, IsLabel label rest →
      (header? spec (spec.intro ++ label ++ rest) =
          some ⟨false, none, label, (spec.intro ++ label).length⟩ ↔
        ∀ c ∈ label.head?, c ∉ spec.flags) ∧
      ((∀ c ∈ label.head?, beginsUnlisted c = false) →
        header? spec (spec.intro ++ label ++ rest) =
          some ⟨false, none, label, (spec.intro ++ label).length⟩ ∧
        ∀ literals budget offset, ∃ found reports,
          matchHeredoc? spec literals budget offset (spec.intro ++ label ++ rest) = some found ∧
          Ends offset (spec.intro ++ label) label false rest found.length reports) := by
  have hallowed := not_overlapsLabel_of_build hbuild hg hr hspec
  refine ⟨fun c hc t => ?_, fun label rest hlabel => ⟨header?_whole_iff hlabel, fun hlisted => ?_⟩⟩
  · rw [← beginsLabel_and_not_overlapsLabel_iff, labelLength_ne_zero_iff,
      and_iff_left (hallowed c hc)]
    constructor
    · rintro ⟨d, t', hcons, hbegins⟩
      cases hcons
      exact hbegins
    · exact fun hbegins => ⟨c, t, rfl, hbegins⟩
  · have hflags : ∀ c ∈ label.head?, c ∉ spec.flags := by
      intro c hc hflag
      have hunlisted := beginsLabel_and_not_overlapsLabel_iff.mp
        ⟨hlabel.beginsLabel_of_mem_head? hc, hallowed c hflag⟩
      rw [hlisted c hc] at hunlisted
      cases hunlisted
    refine ⟨(header?_whole_iff hlabel).mpr hflags, fun literals budget offset => ?_⟩
    obtain ⟨f, hframe, -, hends⟩ := (begins_of_not_mem_flags hlabel hflags).ends offset
    have hintroducer : spec.introducer none none label = spec.intro ++ label := by
      simp [introducer]
    rw [hintroducer] at hends
    have hfound := matchHeredoc?_eq spec literals budget offset (spec.intro ++ label ++ rest)
    rw [hframe, Option.map_some] at hfound
    exact ⟨_, f.missing, hfound, hends⟩

/-- The case of a rule with an ordinary flag and one that begins labels, in front of a label that
begins with a letter and goes on with the second flag. -/
theorem whole_label_iff_no_flag_inside :
    let spec : Heredoc := ⟨['<', '<'], ['~', '℘'], none, []⟩
    let r : Rule := ⟨.string, .heredoc spec, none⟩
    let g : Grammar := ⟨"h", [r], false⟩
    let rest : Text := ['\n', ' ', 'é', '℘', '\n', 'é', '℘']
    GrammarSet.build [g] = .ok ⟨[g]⟩ ∧ g ∈ [g] ∧ r ∈ g.rules ∧ r.matcher = .heredoc spec ∧
    IsLabel ['é', '℘'] rest ∧ beginsUnlisted 'é' = false ∧
    (matchHeredoc? spec [] 0 0 (['<', '<', 'é', '℘'] ++ rest)).map (·.length) = some 11 ∧
    header? spec (['<', '<', 'é', '℘'] ++ rest) = some ⟨false, none, ['é', '℘'], 4⟩ := by
  intro spec r g rest
  have hbuild : GrammarSet.build [g] = .ok ⟨[g]⟩ := GrammarSet.build_eq_of_isOk (by decide +kernel)
  have hlabel : IsLabel ['é', '℘'] rest :=
    isLabel_iff.mpr ⟨List.cons_ne_nil _ _, by decide +kernel⟩
  have hlisted : beginsUnlisted 'é' = false := by decide
  have hwhole := (whole_label_iff_no_flag hbuild List.mem_cons_self List.mem_cons_self rfl).2
    ['é', '℘'] rest hlabel
  refine ⟨hbuild, List.mem_cons_self, List.mem_cons_self, rfl, hlabel, hlisted,
    by decide +kernel, ?_⟩
  exact (hwhole.2 fun c hc => Option.some.inj hc ▸ hlisted).1

/-- **A flag that is taken from a label.** The symbol `℘` is neither alphabetic nor a number, so a
set with this flag is built; but it begins labels. The label `℘a` behind the introducer loses it,
and the heredoc ends with an indented line that holds only `a`. -/
theorem flag_taken_from_label :
    let spec : Heredoc := ⟨['<', '<'], ['℘'], some '\\', []⟩
    let g : Grammar := ⟨"h", [⟨.string, .heredoc spec, none⟩], false⟩
    let rest : Text := ['\n', ' ', 'a', '\n', '℘', 'a']
    GrammarSet.build [g] = .ok ⟨[g]⟩ ∧ '℘' ∈ spec.flags ∧ labelLength ['℘', 'a'] = 2 ∧
    IsLabel ['℘', 'a'] rest ∧
    header? spec (['<', '<', '℘', 'a'] ++ rest) = some ⟨true, none, ['a'], 4⟩ ∧
    (matchHeredoc? spec [] 16 0 (['<', '<', '℘', 'a'] ++ rest)).map (·.length) = some 7 :=
  ⟨GrammarSet.build_eq_of_isOk (by decide +kernel), List.mem_cons_self, by decide +kernel,
    isLabel_iff.mpr ⟨List.cons_ne_nil _ _, by decide +kernel⟩,
    by decide +kernel, by decide +kernel⟩

end Heredoc

end Polylex
