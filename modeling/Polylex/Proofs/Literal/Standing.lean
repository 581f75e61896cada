import Polylex.Proofs.Literal.Zones
import Polylex.Proofs.Offset
import Polylex.Scanner

/-!
# Zones stand where they say

A zone carries its text and the offset at which it starts. Whatever the rules of a grammar are, a
zone of the token at the start of a text stands in that text at its offset
(`Polylex.Grammar.standsIn_of_mem_firstMatch`). So the span of its expression, taken from the text,
is the expression (`Polylex.Window.rest_focus`), and nothing else of the text has to be known in
order to run it.

That the delimiters are not empty, that the token does not reach beyond the text, and that its
zones do not overlap is not needed for this, and does not hold for all rules.
-/

namespace Polylex

/-! ### Zones in a text -/

/-- A zone stands in a text at an offset, where it says. -/
def Zone.StandsIn (offset : Nat) (t : Text) (z : Zone) : Prop :=
  ∃ before after, t = before ++ z.text ++ after ∧ z.start = offset + before.width

variable {offset budget : Nat} {t : Text} {z : Zone}

theorem Zone.StandsIn.prepend (p : Text) (h : z.StandsIn (offset + p.width) t) :
    z.StandsIn offset (p ++ t) := by
  obtain ⟨before, after, rfl, hstart⟩ := h
  exact ⟨p ++ before, after, by simp, by rw [hstart, Text.width_append, Nat.add_assoc]⟩

theorem Zone.StandsIn.append (s : Text) (h : z.StandsIn offset t) : z.StandsIn offset (t ++ s) := by
  obtain ⟨before, after, rfl, hstart⟩ := h
  exact ⟨before, after ++ s, by simp, hstart⟩

/-- What stands in a part of a text that is cut off stands in the text. -/
theorem Zone.StandsIn.of_take {n : Nat} (h : z.StandsIn offset (t.take n)) : z.StandsIn offset t := by
  rw [← List.take_append_drop n t]
  exact h.append _

/-- What stands behind the first characters of a text stands in the text. -/
theorem Zone.StandsIn.of_drop {n : Nat}
    (h : z.StandsIn (offset + Text.width (t.take n)) (t.drop n)) : z.StandsIn offset t := by
  rw [← List.take_append_drop n t]
  exact h.prepend _

/-- **The expression of a zone is found by its span**, in a text in which the zone stands. -/
theorem Window.rest_focus {w : Window} (h : z.StandsIn w.cursor w.rest) :
    (w.focus z.bodySpan).rest = z.body := by
  obtain ⟨before, after, hrest, hstart⟩ := h
  have hcut : w.rest = (before ++ z.opener) ++ z.body ++ (z.closer ++ after) := by
    simp [hrest, Zone.text]
  have hbody : z.bodyStart - w.cursor = Text.width (before ++ z.opener) := by
    rw [Zone.bodyStart, hstart, Text.width_append]
    omega
  have hstop : z.bodyStop - w.cursor = Text.width (before ++ z.opener) + z.body.width := by
    rw [Zone.bodyStop, ← hbody, Zone.bodyStart, hstart]
    omega
  rw [focus, Zone.bodySpan]
  dsimp only
  rw [hbody, hstop, hcut]
  exact Text.slice_append _ _ _

/-! ### Literals -/

namespace Literal

/-- **The zones of a body stand in it**, whatever is passed over. -/
theorem standsIn_of_mem_scanFrom {search : Option CloserSearch} {host : Host}
    (hsearch : ∀ find ∈ search, CloserSearch.Sound find) {skip : Nat} {plain : Bool}
    (hz : z ∈ (scanFrom search host skip plain offset t).zones) : z.StandsIn offset t := by
  induction t generalizing skip plain offset with
  | nil =>
    rw [scanFrom_nil] at hz
    cases hz
  | cons c t ih =>
    have hlater {skip : Nat} {plain : Bool}
        (hz : z ∈ (scanFrom search host skip plain (offset + c.utf8Size) t).zones) :
        z.StandsIn offset (c :: t) := (ih hz).prepend [c]
    cases skip with
    | succ skip => exact hlater hz
    | zero =>
      rw [scanFrom.eq_def] at hz
      dsimp only at hz
      split at hz
      · cases hz
      split at hz
      · exact hlater hz
      split at hz
      · cases hz
      split at hz
      · exact hlater hz
      next z' hopening =>
        rcases List.mem_cons.mp hz with rfl | hz
        · have hopens : opening? search host offset (c :: t) host.forms = some (.zone z) := by
            cases plain with
            | true => cases hopening
            | false => exact hopening
          obtain ⟨-, hstart, after, ht, -⟩ := stands_of_opening? hsearch hopens
          exact ⟨[], after, ht, hstart⟩
        · exact hlater hz
      · exact hlater hz
      · exact hlater hz

theorem standsIn_of_mem_scanBody {host : Host} (hz : z ∈ (scanBody budget host offset t).zones) :
    z.StandsIn offset t := by
  obtain ⟨search, -, hsound, hscan⟩ := exists_search budget
  rw [hscan] at hz
  exact standsIn_of_mem_scanFrom hsound hz

theorem standsIn_of_mem_matchDelimited? {spec : Delimited} {literals : List Delimited}
    {found : Found} (h : matchDelimited? spec literals budget offset t = some found)
    (hz : z ∈ found.zones) : z.StandsIn offset t := by
  rw [matchDelimited?] at h
  split at h
  next hopen =>
    cases h
    obtain ⟨body, rfl⟩ := List.isPrefixOf_iff_prefix.mp hopen
    rw [List.drop_left] at hz
    exact (standsIn_of_mem_scanBody hz).prepend spec.opener
  next => cases h

theorem standsIn_of_mem_scanHeredocBody {spec : Heredoc} {header : HeredocHeader}
    {literals : List Delimited} {origin : Nat}
    (hz : z ∈ (scanHeredocBody spec header literals budget origin offset t).zones) :
    z.StandsIn offset t := by
  rw [scanHeredocBody] at hz
  split at hz
  · cases hz
  · exact standsIn_of_mem_scanBody hz

theorem standsIn_of_mem_matchHeredoc? {spec : Heredoc} {literals : List Delimited}
    {found : Found} (h : matchHeredoc? spec literals budget offset t = some found)
    (hz : z ∈ found.zones) : z.StandsIn offset t := by
  rw [matchHeredoc?] at h
  split at h
  · cases h
  next header hheader =>
  dsimp only at h
  split at h
  · cases h
    cases hz
  next feed body hbody =>
  -- The body stands behind the first line and its line feed.
  have hdrop : t.drop (header.length +
      ((t.drop header.length).takeWhile (· != '\n')).length + 1) = body := by
    rw [← List.drop_drop, hbody, List.drop_one, List.tail_cons]
  split at h
  · cases h
    have hstands := (standsIn_of_mem_scanHeredocBody hz).of_take
    rw [← hdrop] at hstands
    exact hstands.of_drop
  · cases h
    have hstands := standsIn_of_mem_scanHeredocBody hz
    rw [← hdrop] at hstands
    exact hstands.of_drop

end Literal

/-! ### Tokens -/

theorem Matcher.standsIn_of_mem_match? {m : Matcher} {literals : List Delimited}
    {found : Literal.Found} (h : m.match? literals budget offset t = some found)
    (hz : z ∈ found.zones) : z.StandsIn offset t := by
  cases m with
  | literal text =>
    rw [match?_literal] at h
    split at h <;> cases h
    cases hz
  | keyword text =>
    rw [match?_keyword] at h
    split at h <;> cases h
    cases hz
  | chars cls repeats =>
    obtain ⟨n, -, rfl⟩ := Option.map_eq_some_iff.mp h
    cases hz
  | pattern p =>
    obtain ⟨n, -, rfl⟩ := Option.map_eq_some_iff.mp h
    cases hz
  | delimited spec => exact Literal.standsIn_of_mem_matchDelimited? h hz
  | heredoc spec => exact Literal.standsIn_of_mem_matchHeredoc? h hz

theorem Grammar.standsIn_of_mem_firstOf {literals : List Delimited} {index : Nat}
    {rules : List Rule} {m : Match} (h : firstOf literals budget offset t index rules = some m)
    (hz : z ∈ m.zones) : z.StandsIn offset t := by
  induction rules generalizing index with
  | nil => cases h
  | cons r rest ih =>
    rw [firstOf_cons] at h
    split at h
    next m' hm =>
      cases h
      rw [Rule.match?_eq] at hm
      split at hm
      · cases hm
      next found hfound =>
      split at hm
      · cases hm
      · cases hm
        exact Matcher.standsIn_of_mem_match? hfound hz
    next => exact ih h

/-- **The zones of the token at the start of a text stand in the text.** -/
theorem Grammar.standsIn_of_mem_firstMatch {g : Grammar}
    (hz : z ∈ (g.firstMatch budget offset t).zones) : z.StandsIn offset t := by
  rw [firstMatch_eq] at hz
  cases hfound : firstOf g.literals budget offset t 0 g.rules with
  | none =>
    rw [hfound] at hz
    cases hz
  | some m =>
    rw [hfound] at hz
    exact standsIn_of_mem_firstOf hfound hz

end Polylex
