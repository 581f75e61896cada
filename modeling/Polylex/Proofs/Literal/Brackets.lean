import Mathlib.Data.List.Infix
import Polylex.Proofs.Literal.Segment

/-!
# Brackets inside an expression

A closing delimiter that begins with a bracket, such as `}` or `)`, is looked for with a depth:
the partner of its bracket raises the depth, and a closing delimiter lowers it. The two sides
of this count are not of one kind. What raises the depth is a single character, and what
lowers it is the *whole* closing delimiter. So the question which expressions the search reads
to their end, and no further, has two answers.

* For a closing delimiter of any length these are the expressions in which every opening
  bracket has a whole closing delimiter for its partner (`Polylex.Literal.ClosedBy`).
* For a closing delimiter of a single character these are the balanced ones: no beginning
  holds more closing than opening brackets, and the whole expression as many
  (`Polylex.Literal.closedBy_singleton_iff`).

Both are stated for expressions in which no literal starts; what starts there is skipped as a
whole, and the brackets inside it do not count. With a longer closing delimiter a balanced
expression need not be read to its end (`Polylex.Literal.findCloser_misses_doubled`): in
`{a}` behind `{{` and in front of `}}`, the bracket that is opened is never closed.
-/

namespace Polylex.Literal

variable {scan : BodyScanner} {closer after rest e : Text} {literals : List Delimited}
variable {host : Host} {budget depth offset : Nat} {bracket c : Char}

/-! ### Expressions without literals -/

/-- No literal that the search would skip starts inside an expression, which stands in front
of some text: neither one of the literals that the expression may hold, nor one like the
literal around it. -/
def FreeOfLiterals (literals : List Delimited) (host : Host) (after e : Text) : Prop :=
  ∀ s, s <:+ e → s ≠ [] →
    (∀ spec ∈ literals, ¬spec.opener <+: s ++ after) ∧
      ∀ opener ∈ host.opener, ¬opener <+: s ++ after

instance : Decidable (FreeOfLiterals literals host after e) :=
  decidable_of_iff (∀ s ∈ e.tails, s ≠ [] →
    (∀ spec ∈ literals, ¬spec.opener <+: s ++ after) ∧
      ∀ opener ∈ host.opener, ¬opener <+: s ++ after) <| by
    simp only [List.mem_tails, FreeOfLiterals]

theorem FreeOfLiterals.of_suffix {e' : Text} (h : FreeOfLiterals literals host after e)
    (hsuffix : e' <:+ e) : FreeOfLiterals literals host after e' :=
  fun s hs hne => h s (hs.trans hsuffix) hne

/-- Nothing is skipped at the start of such an expression. -/
theorem FreeOfLiterals.nestedLiteral?_eq_none (h : FreeOfLiterals literals host after (c :: e))
    (offset : Nat) : nestedLiteral? literals host offset (c :: (e ++ after)) = none := by
  obtain ⟨hliterals, hopener⟩ := h (c :: e) (List.suffix_refl _) (List.cons_ne_nil c e)
  have hfind : literals.find? (·.opener.isPrefixOf (c :: (e ++ after))) = none := by
    refine List.find?_eq_none.mpr fun spec hspec hbegins => ?_
    exact hliterals spec hspec (List.isPrefixOf_iff_prefix.mp hbegins)
  rw [nestedLiteral?, hfind]
  rcases hhost : host.opener with _ | opener
  · rfl
  · refine if_neg fun hbegins => ?_
    exact hopener opener hhost (List.isPrefixOf_iff_prefix.mp hbegins)

/-! ### Whole closing delimiters -/

/-- **The brackets of an expression are closed by whole closing delimiters**, when some
brackets are open in front of it and some text stands behind it. A character at which a
closing delimiter begins belongs to one, even if that reaches beyond the expression. -/
inductive ClosedBy (closer after : Text) : (depth : Nat) → Text → Prop
  | nil : ClosedBy closer after 0 []
  | closes {depth : Nat} {e e' : Text} (eq : e = closer ++ e')
      (rest : ClosedBy closer after depth e') :
      ClosedBy closer after (depth + 1) e
  | opens {depth : Nat} {c : Char} {e : Text} (bracket : openingBracket? closer = some c)
      (start : ¬closer <+: c :: (e ++ after)) (rest : ClosedBy closer after (depth + 1) e) :
      ClosedBy closer after depth (c :: e)
  | plain {depth : Nat} {c : Char} {e : Text} (bracket : openingBracket? closer ≠ some c)
      (start : ¬closer <+: c :: (e ++ after)) (rest : ClosedBy closer after depth e) :
      ClosedBy closer after depth (c :: e)

theorem closedBy_nil_iff (hcloser : closer ≠ []) : ClosedBy closer after depth [] ↔ depth = 0 := by
  constructor
  · rintro (_ | ⟨heq, -⟩)
    · rfl
    · exact absurd (List.append_eq_nil_iff.mp heq.symm).1 hcloser
  · rintro rfl
    exact .nil

/-- Where no closing delimiter begins, what is left is closed with one more bracket open if the
character is a bracket. -/
theorem closedBy_cons_iff (hstart : ¬closer <+: c :: (e ++ after)) :
    ClosedBy closer after depth (c :: e) ↔
      ClosedBy closer after (if openingBracket? closer = some c then depth + 1 else depth) e := by
  constructor
  · rintro (_ | ⟨heq, -⟩ | ⟨hbracket, -, hrest⟩ | ⟨hbracket, -, hrest⟩)
    · refine absurd ?_ hstart
      rw [← List.cons_append, heq, List.append_assoc]
      exact List.prefix_append closer _
    · rwa [if_pos hbracket]
    · rwa [if_neg hbracket]
  · intro hrest
    by_cases hbracket : openingBracket? closer = some c
    · rw [if_pos hbracket] at hrest
      exact .opens hbracket hstart hrest
    · rw [if_neg hbracket] at hrest
      exact .plain hbracket hstart hrest

/-- At a closing delimiter, a bracket has to be open and the delimiter to fit in. -/
theorem closedBy_iff_of_starts (hstart : closer <+: c :: (e ++ after)) :
    ClosedBy closer after depth (c :: e) ↔
      ∃ d e', depth = d + 1 ∧ c :: e = closer ++ e' ∧ ClosedBy closer after d e' := by
  constructor
  · rintro (_ | ⟨heq, hrest⟩ | ⟨-, hno, -⟩ | ⟨-, hno, -⟩)
    · exact ⟨_, _, rfl, heq, hrest⟩
    · exact absurd hstart hno
    · exact absurd hstart hno
  · rintro ⟨d, e', rfl, heq, hrest⟩
    exact .closes heq hrest

/-! ### The search, step by step -/

theorem closerFrom_closer_zero (hcloser : closer ≠ []) :
    closerFrom scan closer literals host 0 0 offset (closer ++ rest) = some 0 := by
  obtain ⟨b, w, rfl⟩ := List.exists_cons_of_ne_nil hcloser
  have hbegins : (b :: w).isPrefixOf (b :: (w ++ rest)) = true :=
    List.isPrefixOf_iff_prefix.mpr (List.prefix_append (b :: w) rest)
  rw [List.cons_append, closerFrom.eq_def]
  dsimp only
  rw [if_pos hbegins]

/-- A closing delimiter of an open bracket is passed over as a whole. -/
theorem closerFrom_closer_succ (hcloser : closer ≠ []) :
    closerFrom scan closer literals host 0 (depth + 1) offset (closer ++ rest) =
      (closerFrom scan closer literals host 0 depth (offset + closer.width) rest).map
        (· + closer.length) := by
  obtain ⟨b, w, rfl⟩ := List.exists_cons_of_ne_nil hcloser
  have hbegins : (b :: w).isPrefixOf (b :: (w ++ rest)) = true :=
    List.isPrefixOf_iff_prefix.mpr (List.prefix_append (b :: w) rest)
  rw [List.cons_append, closerFrom.eq_def]
  dsimp only
  rw [if_pos hbegins]
  exact closerFrom_pass (List.cons_append ..).symm hcloser

/-- Any other character is passed over by itself, and may be a bracket. -/
theorem closerFrom_character (hstart : ¬closer <+: c :: rest)
    (hliteral : nestedLiteral? literals host offset (c :: rest) = none) :
    closerFrom scan closer literals host 0 depth offset (c :: rest) =
      (closerFrom scan closer literals host 0
        (if openingBracket? closer = some c then depth + 1 else depth) (offset + c.utf8Size)
        rest).map (· + 1) := by
  rw [closerFrom.eq_def]
  dsimp only
  rw [if_neg fun hbegins => hstart (List.isPrefixOf_iff_prefix.mp hbegins), hliteral]

/-- What is found behind a piece is the end of the text exactly if the piece fits in and what
is found is the end of the rest. -/
theorem map_add_eq_some_iff {x : Option Nat} {k n : Nat} :
    x.map (· + k) = some n ↔ k ≤ n ∧ x = some (n - k) := by
  rw [Option.map_eq_some_iff]
  constructor
  · rintro ⟨m, rfl, rfl⟩
    exact ⟨Nat.le_add_left k m, congrArg some (Nat.add_sub_cancel m k).symm⟩
  · rintro ⟨hle, rfl⟩
    exact ⟨n - k, rfl, Nat.sub_add_cancel hle⟩

/-- **The search reads an expression to its end** exactly if its brackets are closed by whole
closing delimiters. -/
theorem closerFrom_eq_length_iff (hcloser : closer ≠ [])
    (hfree : FreeOfLiterals literals host (closer ++ rest) e) :
    closerFrom scan closer literals host 0 depth offset (e ++ (closer ++ rest)) = some e.length ↔
      ClosedBy closer (closer ++ rest) depth e := by
  -- The induction is on the length of the expression: a closing delimiter is read in one go.
  induction hn : e.length using Nat.strongRecOn generalizing e depth offset with
  | ind n ih =>
  subst hn
  rcases e with _ | ⟨c, e⟩
  · rw [List.nil_append, closedBy_nil_iff hcloser]
    rcases depth with _ | depth
    · exact iff_of_true (closerFrom_closer_zero hcloser) rfl
    · rw [closerFrom_closer_succ hcloser, map_add_eq_some_iff]
      refine iff_of_false (fun h => ?_) (Nat.succ_ne_zero depth)
      exact hcloser (List.length_eq_zero_iff.mp (Nat.le_zero.mp h.1))
  by_cases hstart : closer <+: c :: (e ++ (closer ++ rest))
  · obtain ⟨r, hr⟩ := hstart
    rw [closedBy_iff_of_starts ⟨r, hr⟩, List.cons_append, ← hr]
    rcases depth with _ | depth
    · rw [closerFrom_closer_zero hcloser]
      refine iff_of_false (fun h => ?_) (fun ⟨d, e', hd, _⟩ => ?_)
      · cases h
      · cases hd
    · rw [closerFrom_closer_succ hcloser, map_add_eq_some_iff]
      have hbehind {e' : Text} (he' : c :: e = closer ++ e') :
          closerFrom scan closer literals host 0 depth (offset + closer.width) r =
              some ((c :: e).length - closer.length) ↔
            ClosedBy closer (closer ++ rest) depth e' := by
        have hr' : r = e' ++ (closer ++ rest) := by
          rw [← List.cons_append, he', List.append_assoc] at hr
          exact List.append_cancel_left hr
        have hlength : (c :: e).length = closer.length + e'.length := by
          rw [he', List.length_append]
        have hpos : 0 < closer.length := List.length_pos_iff.mpr hcloser
        rw [hr', hlength, Nat.add_sub_cancel_left]
        exact ih e'.length (by omega) (hfree.of_suffix ⟨closer, he'.symm⟩) rfl
      constructor
      · rintro ⟨hle, hfound⟩
        -- The delimiter fits into the expression, so the rest of the expression stands behind it.
        obtain ⟨e', he'⟩ : closer <+: c :: e :=
          List.prefix_of_prefix_length_le ⟨r, hr⟩ (List.prefix_append (c :: e) _) hle
        exact ⟨depth, e', rfl, he'.symm, (hbehind he'.symm).mp hfound⟩
      · rintro ⟨d, e', hd, he', hclosed⟩
        obtain rfl : depth = d := Nat.succ.inj hd
        refine ⟨?_, (hbehind he').mpr hclosed⟩
        rw [he', List.length_append]
        exact Nat.le_add_right _ _
  · have hfree' : FreeOfLiterals literals host (closer ++ rest) e :=
      hfree.of_suffix (List.suffix_cons c e)
    rw [List.cons_append, closerFrom_character hstart (hfree.nestedLiteral?_eq_none offset),
      map_add_eq_some_iff, closedBy_cons_iff hstart, ← ih e.length (Nat.lt_succ_self _) hfree' rfl]
    exact and_iff_right (Nat.succ_pos e.length)

/-! ### Closing delimiters of a single character -/

/-- **Two brackets are balanced** in an expression, when some are open in front of it: no
beginning closes more than are open, and at the end none is open. -/
structure Balanced (opening closing : Char) (depth : Nat) (e : Text) : Prop where
  prefixes : ∀ p, p <+: e → p.count closing ≤ depth + p.count opening
  total : e.count closing = depth + e.count opening

section Balanced

variable {opening closing : Char}

theorem balanced_nil_iff : Balanced opening closing depth [] ↔ depth = 0 := by
  constructor
  · rintro ⟨-, htotal⟩
    exact htotal.symm
  · rintro rfl
    refine ⟨fun p hp => ?_, rfl⟩
    rw [List.prefix_nil.mp hp]
    exact Nat.le_refl 0

theorem count_cons_eq_add (b c : Char) (p : Text) : (c :: p).count b = [c].count b + p.count b := by
  rw [← List.count_append, List.singleton_append]

/-- A character in front changes the number of open brackets by what it is itself. -/
theorem balanced_cons_iff {next : Nat}
    (h : depth + [c].count opening = next + [c].count closing) :
    Balanced opening closing depth (c :: e) ↔ Balanced opening closing next e := by
  constructor
  · rintro ⟨hprefixes, htotal⟩
    rw [count_cons_eq_add, count_cons_eq_add opening] at htotal
    refine ⟨fun p hp => ?_, by omega⟩
    have hcons := hprefixes (c :: p) ((List.prefix_cons_inj c).mpr hp)
    rw [count_cons_eq_add, count_cons_eq_add opening] at hcons
    omega
  · rintro ⟨hprefixes, htotal⟩
    refine ⟨fun p hp => ?_, ?_⟩
    · rcases List.prefix_cons_iff.mp hp with rfl | ⟨q, rfl, hq⟩
      · exact Nat.zero_le _
      · have hq' := hprefixes q hq
        rw [count_cons_eq_add, count_cons_eq_add opening]
        omega
    · rw [count_cons_eq_add, count_cons_eq_add opening]
      omega

/-- Where nothing is open, nothing can be closed. -/
theorem not_balanced_zero_cons (hne : opening ≠ closing) :
    ¬Balanced opening closing 0 (closing :: e) := by
  rintro ⟨hprefixes, -⟩
  have hone := hprefixes [closing] (List.prefix_append [closing] e)
  rw [List.count_singleton_self, List.count_singleton, beq_false_of_ne hne.symm] at hone
  exact absurd hone (by decide)

/-- A bracket is not its own partner. -/
theorem ne_of_openingBracket? (h : openingBracket? [closing] = some opening) :
    opening ≠ closing := by
  rw [openingBracket?.eq_def] at h
  split at h <;> cases h <;> rename_i heq <;> cases heq <;> decide

/-- **For a closing delimiter of a single character**, whole closing delimiters are closing
brackets. -/
theorem closedBy_singleton_iff (hbracket : openingBracket? [closing] = some opening) :
    ClosedBy [closing] after depth e ↔ Balanced opening closing depth e := by
  have hne := ne_of_openingBracket? hbracket
  induction e generalizing depth with
  | nil => rw [closedBy_nil_iff (List.cons_ne_nil _ _), balanced_nil_iff]
  | cons c e ih =>
    by_cases hclosing : c = closing
    · subst hclosing
      have hstart : [c] <+: c :: (e ++ after) := ⟨e ++ after, rfl⟩
      rw [closedBy_iff_of_starts hstart]
      rcases depth with _ | depth
      · refine iff_of_false (fun ⟨d, e', hd, _⟩ => ?_) (not_balanced_zero_cons hne)
        cases hd
      · have hcount : depth + 1 + [c].count opening = depth + [c].count c := by
          rw [List.count_singleton_self, List.count_singleton, beq_false_of_ne hne.symm]
          rfl
        rw [balanced_cons_iff hcount]
        constructor
        · rintro ⟨d, e', hd, he', hrest⟩
          obtain rfl : depth = d := Nat.succ.inj hd
          obtain rfl : e = e' := (List.cons.inj he').2
          exact ih.mp hrest
        · intro hrest
          exact ⟨depth, e, rfl, rfl, ih.mpr hrest⟩
    · have hstart : ¬[closing] <+: c :: (e ++ after) := fun h =>
        hclosing (List.cons_prefix_cons.mp h).1.symm
      have hcount : depth + [c].count opening =
          (if openingBracket? [closing] = some c then depth + 1 else depth) +
            [c].count closing := by
        rw [hbracket, List.count_singleton, List.count_singleton, beq_false_of_ne hclosing]
        by_cases hopening : c = opening
        · simp [hopening]
        · simp [hopening, Ne.symm hopening]
      rw [closedBy_cons_iff hstart, balanced_cons_iff hcount]
      exact ih

end Balanced

/-! ### The end of an expression -/

/-- **When the search reads an expression to its end.** Take a closing delimiter that begins
with a bracket, and an expression in which no literal starts, in front of the closing
delimiter and any text. The end of the expression is found exactly if its brackets are closed
by whole closing delimiters. For a closing delimiter of a single character that is to say that
the brackets are balanced: no beginning of the expression holds more closing than opening
brackets, and the expression holds as many. -/
theorem findCloser_eq_length_iff (hbracket : openingBracket? closer = some bracket)
    (hfree : FreeOfLiterals literals host (closer ++ rest) e) :
    (findCloser budget closer literals host offset (e ++ (closer ++ rest)) = some e.length ↔
      ClosedBy closer (closer ++ rest) 0 e) ∧
    ∀ c, closer = [c] →
      (findCloser budget closer literals host offset (e ++ (closer ++ rest)) = some e.length ↔
        (∀ p, p <+: e → p.count c ≤ p.count bracket) ∧ e.count c = e.count bracket) := by
  have hcloser : closer ≠ [] := by
    rintro rfl
    cases hbracket
  have hfound : findCloser budget closer literals host offset (e ++ (closer ++ rest)) =
      some e.length ↔ ClosedBy closer (closer ++ rest) 0 e := closerFrom_eq_length_iff hcloser hfree
  refine ⟨hfound, ?_⟩
  rintro c rfl
  refine (hfound.trans (closedBy_singleton_iff hbracket)).trans ?_
  constructor
  · rintro ⟨hprefixes, htotal⟩
    simp only [Nat.zero_add] at hprefixes htotal
    exact ⟨hprefixes, htotal⟩
  · rintro ⟨hprefixes, htotal⟩
    exact ⟨by simpa using hprefixes, by simpa using htotal⟩

/-- The case of a doubled closing delimiter, in front of a quote: in ` {a}} ` the bracket has a
whole closing delimiter for its partner. -/
theorem findCloser_eq_length_iff_doubled :
    let host := Host.ofDelimited ⟨['"'], ['"'], none, false, []⟩ 0 []
    openingBracket? ['\x7d', '\x7d'] = some '\x7b' ∧
    FreeOfLiterals [] host ['\x7d', '\x7d', '"'] [' ', '\x7b', 'a', '\x7d', '\x7d', ' '] ∧
    findCloser 0 ['\x7d', '\x7d'] [] host 3
      [' ', '\x7b', 'a', '\x7d', '\x7d', ' ', '\x7d', '\x7d', '"'] = some 6 := by
  intro host
  have hbracket : openingBracket? ['\x7d', '\x7d'] = some '\x7b' := rfl
  have hfree : FreeOfLiterals [] host ['\x7d', '\x7d', '"']
      [' ', '\x7b', 'a', '\x7d', '\x7d', ' '] := by decide
  have hclosed : ClosedBy ['\x7d', '\x7d'] ['\x7d', '\x7d', '"'] 0
      [' ', '\x7b', 'a', '\x7d', '\x7d', ' '] :=
    .plain (by decide) (by decide) <| .opens (by decide) (by decide) <|
      .plain (by decide) (by decide) <| .closes rfl <| .plain (by decide) (by decide) .nil
  exact ⟨hbracket, hfree, (findCloser_eq_length_iff hbracket hfree).1.mpr hclosed⟩

/-- **A longer closing delimiter is missed behind balanced brackets.** In ` {a} ` the bracket
that is opened is closed again, and the search does not find the `}}` behind it. -/
theorem findCloser_misses_doubled :
    let host := Host.ofDelimited ⟨['"'], ['"'], none, false, []⟩ 0 []
    let e : Text := [' ', '\x7b', 'a', '\x7d', ' ']
    openingBracket? ['\x7d', '\x7d'] = some '\x7b' ∧
    FreeOfLiterals [] host ['\x7d', '\x7d', '"'] e ∧
    ((∀ p, p <+: e → p.count '\x7d' ≤ p.count '\x7b') ∧ e.count '\x7d' = e.count '\x7b') ∧
    findCloser 0 ['\x7d', '\x7d'] [] host 3 (e ++ ['\x7d', '\x7d', '"']) = none := by
  refine ⟨rfl, by decide, ⟨fun p hp => ?_, rfl⟩, rfl⟩
  have hall : ∀ p ∈ List.inits [' ', '\x7b', 'a', '\x7d', ' '],
      p.count '\x7d' ≤ p.count '\x7b' := by decide
  exact hall p ((List.mem_inits _ _).mpr hp)

end Polylex.Literal
