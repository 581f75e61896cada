import Polylex.Proofs.FirstMatch

/-!
# Matches that read nothing

A matcher that could match without reading anything is refused. What the other matchers find is
never empty (`Polylex.Matcher.length_pos_of_match?`); but for a pattern this is so only because a
rule discards the empty match. A pattern is tried on a single text beforehand, the empty one, and
one that does not match there may still prefer the empty match of another text
(`Polylex.Matcher.prefers_empty_match`). There its rule fails, although the pattern matches
(`Polylex.Matcher.discards_only_empty_match`).

Nothing is assumed about how patterns find their matches. For the patterns of expressions
`Polylex.Matcher.exists_mayStopAtWord_of_ofPattern` says where the empty match is preferred.
-/

namespace Polylex

namespace Pattern

variable {p : Pattern} {t : Text}

/-- A match counts unless it is the empty one. -/
theorem matchLength?_eq_matchAt? (h : p.matchAt? t ≠ some 0) :
    p.matchLength? t = p.matchAt? t := by
  rw [matchLength?]
  cases hmatch : p.matchAt? t with
  | none => rfl
  | some n =>
    have hpos : 0 < n := Nat.pos_of_ne_zero fun hzero => h (hzero ▸ hmatch)
    simp [Option.filter, hpos]

/-- The empty match does not count. -/
theorem matchLength?_eq_none (h : p.matchAt? t = some 0) : p.matchLength? t = none := by
  rw [matchLength?, h]
  rfl

/-- A pattern that does not match the empty text prefers the empty match only of other texts. -/
theorem ne_nil_of_matchAt?_eq_zero (hreads : p.matchesEmpty = false) (h : p.matchAt? t = some 0) :
    t ≠ [] := by
  rintro rfl
  rw [matchesEmpty, h] at hreads
  cases hreads

end Pattern

/-! ### Matchers that are not refused -/

namespace Matcher

variable {literals : List Delimited} {budget offset : Nat} {t : Text} {found : Literal.Found}

/-- What is not empty reads something of the text that it begins. -/
theorem length_pos_of_isPrefixOf {text t : Text} (htext : text.isEmpty = false)
    (h : text.isPrefixOf t = true) : t ≠ [] ∧ 0 < text.length := by
  have hne : text ≠ [] := by simpa using htext
  refine ⟨?_, List.length_pos_iff.mpr hne⟩
  rintro rfl
  exact hne (List.prefix_nil.mp (List.isPrefixOf_iff_prefix.mp h))

/-- **What a matcher reads is not empty** unless the matcher is refused. -/
theorem length_pos_of_match? {m : Matcher} (h : m.canMatchEmpty = false)
    (hfound : m.match? literals budget offset t = some found) : t ≠ [] ∧ 0 < found.length := by
  cases m with
  | literal text =>
    rw [match?_literal] at hfound
    split at hfound
    next hbegins =>
      cases hfound
      exact length_pos_of_isPrefixOf h hbegins
    next => cases hfound
  | keyword text =>
    rw [match?_keyword] at hfound
    split at hfound
    next hboth =>
      cases hfound
      exact length_pos_of_isPrefixOf h (Bool.and_eq_true_iff.mp hboth).1
    next => cases hfound
  | chars cls repeats =>
    obtain ⟨n, hn, rfl⟩ := Option.map_eq_some_iff.mp hfound
    cases t with
    | nil => cases hn
    | cons c t =>
      rw [CharClass.runLength?] at hn
      split at hn
      · cases hn
        refine ⟨List.cons_ne_nil c t, ?_⟩
        dsimp only
        split <;> omega
      · cases hn
  | pattern p =>
    obtain ⟨n, hn, rfl⟩ := Option.map_eq_some_iff.mp hfound
    have hpos : 0 < n := by simpa using (Option.filter_eq_some_iff.mp hn).2
    exact ⟨List.length_pos_iff.mp (Nat.lt_of_lt_of_le hpos (Pattern.matchLength?_le hn)), hpos⟩
  | delimited spec =>
    rw [match?_delimited, Literal.matchDelimited?] at hfound
    split at hfound
    next hbegins =>
      cases hfound
      have hopener : spec.opener.isEmpty = false := (Bool.or_eq_false_iff.mp h).1
      obtain ⟨ht, hpos⟩ := length_pos_of_isPrefixOf hopener hbegins
      exact ⟨ht, Nat.add_pos_left hpos _⟩
    next => cases hfound
  | heredoc spec =>
    rw [match?_heredoc, Literal.matchHeredoc?] at hfound
    split at hfound
    · cases hfound
    next header hheader =>
    have ht : t ≠ [] := by
      rw [Literal.header?] at hheader
      split at hheader
      next hbegins => exact (length_pos_of_isPrefixOf h hbegins).1
      next => cases hheader
    refine ⟨ht, ?_⟩
    dsimp only at hfound
    split at hfound
    · cases hfound
      exact List.length_pos_iff.mpr ht
    split at hfound
    · cases hfound
      dsimp only
      omega
    · cases hfound
      exact List.length_pos_iff.mpr ht

/-- A pattern that has no match but the empty one reads nothing. -/
theorem match?_pattern_eq_none_iff {p : Pattern} :
    (pattern p).match? literals budget offset t = none ↔
      p.matchAt? t = none ∨ p.matchAt? t = some 0 := by
  rw [match?_pattern, Option.map_eq_none_iff]
  by_cases hzero : p.matchAt? t = some 0
  · exact iff_of_true (Pattern.matchLength?_eq_none hzero) (.inr hzero)
  · rw [Pattern.matchLength?_eq_matchAt? hzero, or_iff_left hzero]

end Matcher

/-- A rule that is not refused fails exactly where its matcher finds nothing. -/
theorem Rule.match?_eq_none_iff_of_reads {r : Rule} {index : Nat} {literals : List Delimited}
    {budget offset : Nat} {t : Text} (h : r.matcher.canMatchEmpty = false) :
    r.match? index literals budget offset t = none ↔
      r.matcher.match? literals budget offset t = none := by
  rw [Rule.match?_eq_none_iff, Matcher.Reads]
  constructor
  · refine fun hreads => Option.eq_none_iff_forall_ne_some.mpr fun found hfound => ?_
    have hpos : 0 < found.length := (r.matcher.length_pos_of_match? h hfound).2
    exact hreads ⟨found, hfound, Nat.pos_iff_ne_zero.mp hpos⟩
  · rintro hnone ⟨found, hfound, -⟩
    rw [hnone] at hfound
    cases hfound

/-- **What becomes of empty matches.** Whatever a matcher that is not refused finds at a place ends
behind it. For a pattern this is so because the empty match is discarded: where the pattern prefers
it, which is never in the empty text, it finds nothing, and everywhere else it finds what it
prefers. So a rule of a set that has been built fails in front of a text exactly if its pattern
does not match there, or if it prefers the empty match. -/
theorem Matcher.discards_only_empty_match {m : Matcher} (h : m.canMatchEmpty = false)
    (literals : List Delimited) (budget offset : Nat) (t : Text) :
    (∀ found, m.match? literals budget offset t = some found →
      offset < offset + Text.width (t.take found.length)) ∧
    ∀ p, m = .pattern p →
      (p.matchAt? t = some 0 → t ≠ [] ∧ m.match? literals budget offset t = none) ∧
      (p.matchAt? t ≠ some 0 →
        (m.match? literals budget offset t).map (·.length) = p.matchAt? t) ∧
      ∀ grammars s, GrammarSet.build grammars = .ok s → ∀ g ∈ s.grammars, ∀ rule ∈ g.rules,
        rule.matcher = m → ∀ index,
          (rule.match? index literals budget offset t = none ↔
            p.matchAt? t = none ∨ t ≠ [] ∧ p.matchAt? t = some 0) := by
  constructor
  · intro found hfound
    obtain ⟨ht, hpos⟩ := m.length_pos_of_match? h hfound
    have hne : t.take found.length ≠ [] := by simp [ht, Nat.pos_iff_ne_zero.mp hpos]
    exact Nat.lt_add_of_pos_right (Text.width_pos hne)
  rintro p rfl
  have hempty : p.matchAt? t = some 0 → t ≠ [] := Pattern.ne_nil_of_matchAt?_eq_zero h
  refine ⟨fun hzero => ?_, fun hzero => ?_, ?_⟩
  · exact ⟨hempty hzero, match?_pattern_eq_none_iff.mpr (.inr hzero)⟩
  · rw [match?_pattern, Pattern.matchLength?_eq_matchAt? hzero, Option.map_map]
    exact Option.map_id' ..
  · intro grammars s hbuild g hg rule hrule hp index
    have hreads := (GrammarSet.valid_of_build hbuild g hg rule hrule).reads
    rw [Rule.match?_eq_none_iff_of_reads hreads, hp, match?_pattern_eq_none_iff]
    exact or_congr_right (iff_and_self.mpr hempty)

/-- The expression of the pattern `\b|ab`. -/
def Regex.boundaryOrWord : Regex :=
  .seq (.anchor .textStart)
    (.either (.anchor .wordBoundary) (.seq (.one (.single 'a')) (.one (.single 'b'))))

/-- On `ab` the pattern `\b|ab` prefers its first alternative, and on `!` it does not match: its
rule fails in front of both. -/
theorem Matcher.discards_only_empty_match_of_boundaryOrWord :
    let p := Pattern.ofRegex .boundaryOrWord
    let rule : Rule := ⟨.string, .pattern p, none⟩
    let g : Grammar := ⟨"g", [rule], false⟩
    (pattern p).canMatchEmpty = false ∧ GrammarSet.build [g] = .ok ⟨[g]⟩ ∧
      p.matchAt? ['a', 'b'] = some 0 ∧ (pattern p).match? [] 1 0 ['a', 'b'] = none ∧
      rule.match? 0 [] 1 0 ['a', 'b'] = none ∧
      p.matchAt? ['!'] = none ∧ rule.match? 0 [] 1 0 ['!'] = none := by
  intro p rule g
  have hreads : (pattern p).canMatchEmpty = false := by decide +kernel
  have hbuild : GrammarSet.build [g] = .ok ⟨[g]⟩ := GrammarSet.build_eq_of_isOk (by decide +kernel)
  have hzero : p.matchAt? ['a', 'b'] = some 0 := by decide +kernel
  have hnone : p.matchAt? ['!'] = none := by decide +kernel
  have hpattern (t : Text) := (discards_only_empty_match hreads [] 1 0 t).2 p rfl
  have hrule (t : Text) := (hpattern t).2.2 _ _ hbuild g List.mem_cons_self rule
    List.mem_cons_self rfl 0
  exact ⟨hreads, hbuild, hzero, ((hpattern ['a', 'b']).1 hzero).2,
    (hrule _).mpr (.inr ⟨List.cons_ne_nil _ _, hzero⟩), hnone, (hrule _).mpr (.inl hnone)⟩

/-- **A pattern that is not refused can prefer the empty match.** The pattern `\b|ab` is written
in a rule that a set accepts. On `ab` it prefers the empty match, and the rule fails there. -/
theorem Matcher.prefers_empty_match :
    Matcher.ofPattern "\\b|ab" = .ok (.pattern (.ofRegex .boundaryOrWord)) ∧
      (Matcher.pattern (.ofRegex .boundaryOrWord)).canMatchEmpty = false ∧
      (GrammarSet.build
        [⟨"g", [⟨.string, .pattern (.ofRegex .boundaryOrWord), none⟩], false⟩]).isOk = true ∧
      (Pattern.ofRegex .boundaryOrWord).matchAt? ['a', 'b'] = some 0 ∧
      (Matcher.pattern (.ofRegex .boundaryOrWord)).match? [] 1 0 ['a', 'b'] = none := by
  have hread : Regex.read? ("\\A(?:".toList ++ "\\b|ab".toList ++ ")".toList) =
      some .boundaryOrWord := by decide +kernel
  refine ⟨?_, by decide +kernel, by decide +kernel, by decide +kernel, by decide +kernel⟩
  rw [ofPattern, Pattern.atStart?, hread]
  rfl

end Polylex
