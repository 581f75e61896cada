import Polylex.Proofs.Scanning

/-!
# The places of the zones of a token

A scanner hands on the zones of a literal as they are found, and what is done with them later
relies on where they are. This file puts together what is known about the zones of any token
that a scanner finds (`Polylex.RawToken.ZonesPlaced`). They follow each other; each consists of
three ranges of the text that touch; and there is a rule to account for them. The token is then
an opening part, a content and a closing part (`Polylex.Matcher.Surrounds`): the delimiters of a
literal, or the first line and the terminator of a heredoc. The zones are in the content, and
the delimiters of each are those of a form that the rule declares
(`Polylex.Interpolation.Shapes`).
-/

namespace Polylex

open Literal

variable {g : Grammar} {budget limit offset : Nat} {t : Text}

/-- **A zone has the shape of a form**, in a text in front of a limit: its delimiters are those
of the form. Behind a sigil, the expression is the whole label that stands there. -/
def Interpolation.Shapes (t : Text) (limit : Nat) (z : Zone) : Interpolation → Prop
  | .braced opener closer grammar =>
    t.slice z.openerSpan = opener ∧ t.slice z.closerSpan = closer ∧ z.grammar = grammar
  | .sigil mark grammar =>
    t.slice z.openerSpan = [mark] ∧ t.slice z.closerSpan = [] ∧ z.grammar = grammar ∧
      ∃ rest, t.slice ⟨z.bodyStart, limit⟩ = t.slice z.bodySpan ++ rest ∧
        IsLabel (t.slice z.bodySpan) rest

/-- **What stands around the content** of what a matcher finds at the start of a text. -/
inductive Matcher.Surrounds (offset : Nat) (t : Text) (found : Found) :
    Matcher → (opening content closing : Text) → Prop
  | delimited {spec : Delimited} {content closing : Text}
      (ends : Ends spec ⟨offset, offset + Text.width (t.take found.length)⟩ found.diagnostics
        closing) :
      Surrounds offset t found (.delimited spec) spec.opener content closing
  | heredoc {spec : Heredoc} {opening content closing : Text}
      (encloses : spec.Encloses offset t found.diagnostics opening content closing) :
      Surrounds offset t found (.heredoc spec) opening content closing

/-- **The zones of a token are in their places**, in a text in front of a limit. -/
structure RawToken.ZonesPlaced (g : Grammar) (budget : Nat) (t : Text) (limit : Nat)
    (raw : RawToken) : Prop where
  ordered : raw.zones.Pairwise fun z z' => z.stop ≤ z'.start
  ranges : ∀ z ∈ raw.zones, z.openerSpan.start < z.openerSpan.stop ∧
    t.IsRange z.openerSpan ∧ z.openerSpan.stop = z.bodySpan.start ∧
    t.IsRange z.bodySpan ∧ z.bodySpan.stop = z.closerSpan.start ∧ t.IsRange z.closerSpan
  /-- A rule accounts for the zones, if there are any. -/
  held : raw.zones ≠ [] → ∃ i r found opening content closing,
    raw.rule = some i ∧ g.rules[i]? = some r ∧
    r.matcher.match? g.literals budget raw.span.start (t.slice ⟨raw.span.start, limit⟩) =
      some found ∧ raw.zones = found.zones ∧
    t.slice raw.span = opening ++ content ++ closing ∧
    r.matcher.Surrounds raw.span.start (t.slice ⟨raw.span.start, limit⟩) found opening content
      closing ∧
    ∀ z ∈ raw.zones, raw.span.start + opening.width ≤ z.start ∧
      z.stop ≤ raw.span.start + opening.width + content.width ∧
      ∃ form ∈ r.matcher.interpolations, form.Shapes t limit z

/-! ### Matchers -/

/-- **What a matcher finds holds its zones in a content.** -/
theorem Matcher.exists_surrounds {m : Matcher} {literals : List Delimited} {found : Found}
    (hforms : ∀ form ∈ m.interpolations, form.opener ≠ [])
    (h : m.match? literals budget offset t = some found) (hzones : found.zones ≠ []) :
    ∃ opening content closing,
      found.Holds m.interpolations budget offset t opening content closing ∧
      m.Surrounds offset t found opening content closing := by
  obtain ⟨z, hz⟩ := List.exists_mem_of_ne_nil _ hzones
  obtain ⟨-, form, hform, -⟩ := (fits_of_match? hforms h).forms z hz
  rcases m with text | text | ⟨cls, repeats⟩ | p | spec | spec
  case delimited =>
    obtain ⟨content, closing, hholds, hends⟩ := exists_content_of_matchDelimited? hforms h
    exact ⟨spec.opener, content, closing, hholds, .delimited hends⟩
  case heredoc =>
    obtain ⟨opening, content, closing, hholds, hencloses⟩ :=
      Heredoc.exists_content_of_matchHeredoc? hforms h
    exact ⟨opening, content, closing, hholds, .heredoc (hencloses hzones)⟩
  -- Other matchers have no forms.
  all_goals cases hform

/-! ### Zones in a text -/

section Zones

variable {z : Zone}

/-- The three parts of a zone stand in the text where the zone says. -/
theorem Zone.at_parts (h : t.At z.start z.text) :
    t.At z.start z.opener ∧ t.At z.bodyStart z.body ∧ t.At z.bodyStop z.closer := by
  have hbody : t.At z.bodyStart z.body := at_bodyStart h
  rw [text, List.append_assoc] at h
  exact ⟨h.left, hbody, h.right.right⟩

/-- **A declared zone has the shape of a form** in the whole text. -/
theorem exists_shapes {forms : List Interpolation} {m : Text} (hat : t.At offset m)
    (hlimit : limit = offset + m.width) (h : Declared forms offset m z) :
    ∃ form ∈ forms, form.Shapes t limit z := by
  obtain ⟨before, rest, rfl, hstart, form, hform, hfits⟩ := h
  refine ⟨form, hform, ?_⟩
  rw [List.append_assoc] at hat
  have hzone : t.At z.start (z.text ++ rest) := hstart ▸ hat.right
  obtain ⟨hopener, hbody, hcloser⟩ := Zone.at_parts hzone.left
  have hopener' : t.slice z.openerSpan = z.opener := hopener.slice_eq
  have hbody' : t.slice z.bodySpan = z.body := hbody.slice_eq
  have hcloser' : t.slice z.closerSpan = z.closer := hcloser.slice_eq
  rcases form with ⟨opener, closer, grammar⟩ | ⟨mark, grammar⟩
  · obtain ⟨rfl, rfl, rfl⟩ := hfits
    exact ⟨hopener', hcloser', rfl⟩
  · have hlabel := hfits.isLabel
    obtain ⟨hmark, hnil, rfl, -⟩ := hfits
    rw [hmark] at hopener'
    rw [hnil] at hcloser'
    -- Nothing stands between the label and the rest.
    have hbehind : t.At z.bodyStart (z.body ++ rest) := by
      rw [Zone.text, hnil, List.append_nil, List.append_assoc] at hzone
      exact hzone.right
    have hstop : limit = z.bodyStart + (z.body ++ rest).width := by
      rw [hlimit, Zone.bodyStart, hstart, Zone.text, hnil]
      simp only [Text.width_append, Text.width_nil]
      omega
    refine ⟨hopener', hcloser', rfl, rest, ?_, ?_⟩
    · rw [hbody', hstop]
      exact hbehind.slice_eq
    · rw [hbody']
      exact hlabel

end Zones

/-! ### Tokens -/

namespace RawToken

variable {raw : RawToken}

theorem zonesPlaced_of_zones_eq_nil (h : raw.zones = []) : raw.ZonesPlaced g budget t limit := by
  refine ⟨?_, ?_, fun hne => absurd h hne⟩
  · rw [h]
    exact .nil
  · rw [h]
    exact List.forall_mem_nil _

/-- **The zones of a token that is a first match are in their places.** -/
theorem IsFirst.zonesPlaced
    (hforms : ∀ r ∈ g.rules, ∀ form ∈ r.matcher.interpolations, form.opener ≠ [])
    (hlimit : t.IsBoundary limit) (h : raw.IsFirst g budget t limit) :
    raw.ZonesPlaced g budget t limit := by
  by_cases hne : raw.zones = []
  · exact zonesPlaced_of_zones_eq_nil hne
  rcases hrule : raw.rule with _ | i
  · obtain ⟨-, -, hnil, -⟩ := h.ofNone hrule
    exact absurd hnil hne
  obtain ⟨r, found, hr, hfound, hbegins, hlength, -, -, hzones, -⟩ := h.ofRule i hrule
  obtain ⟨hat, hstop⟩ : t.At raw.span.start (t.slice ⟨raw.span.start, limit⟩) ∧
      limit = raw.span.start + (t.slice ⟨raw.span.start, limit⟩).width :=
    Text.IsRange.at ⟨h.isRange.start, hlimit, Nat.le_trans h.isRange.start_le_stop h.within⟩
  obtain ⟨opening, content, closing, hholds, hsurrounds⟩ :=
    Matcher.exists_surrounds (hforms r (List.mem_of_getElem? hr)) hfound (hzones ▸ hne)
  have htoken : t.slice raw.span = opening ++ content ++ closing := by
    rw [List.prefix_iff_eq_take.mp hbegins, hlength, hholds.take_eq]
  have hcontent : t.At (raw.span.start + opening.width) content := by
    obtain ⟨rest, hrest⟩ := hholds.reads
    have hall := hat
    rw [← hrest, List.append_assoc, List.append_assoc] at hall
    exact hall.right.left
  refine ⟨hzones ▸ hholds.zones.pairwise, fun z hz => ?_, fun _ =>
    ⟨i, r, found, opening, content, closing, hrule, hr, hfound, hzones, htoken, hsurrounds,
      fun z hz => ?_⟩⟩
  · rw [hzones] at hz
    obtain ⟨hopener, hbody, hcloser⟩ := Zone.at_parts (hholds.zones.at_of_mem hcontent hz)
    exact ⟨(hholds.zones.bounds_of_mem hz).2, hopener.isRange, rfl, hbody.isRange, rfl,
      hcloser.isRange⟩
  · rw [hzones] at hz
    exact ⟨(hholds.zones.bounds_of_mem hz).1, hholds.zones.stop_le_of_mem hz,
      exists_shapes hat hstop (hholds.declared z hz).2⟩

end RawToken

namespace Scanner

/-- **The zones of all tokens of a scan are in their places**, in any text, between a cursor and
a limit that is not in front of it, and with any budget. -/
theorem scan_places_zones {cursor : Nat}
    (hforms : ∀ r ∈ g.rules, ∀ form ∈ r.matcher.interpolations, form.opener ≠ [])
    (hrange : t.IsRange ⟨cursor, limit⟩) (budget : Nat) :
    (∃ steps, Unfolds scanOne (start g t cursor limit budget) steps) ∧
      ∀ steps, Unfolds scanOne (start g t cursor limit budget) steps →
        ∀ step ∈ steps, step.1.ZonesPlaced g budget t limit := by
  have hstands : (start g t cursor limit budget).Stands g budget t limit := stands_start hrange
  refine ⟨?_, fun steps hunfolds step hstep => ?_⟩
  · obtain ⟨steps, hunfolds, -⟩ := hstands.exists_unfolds hforms
    exact ⟨steps, hunfolds⟩
  · exact (hunfolds.isFirst hforms hstands step hstep).zonesPlaced hforms hrange.stop

/-- The case of a literal with an expression and a name in it, in front of a heredoc with a name
in its body. The name reaches to the end of the line, and the terminator is no part of it. -/
theorem scan_places_zones_heredoc :
    let g : Grammar :=
      ⟨"g", [⟨.string, .delimited ⟨['"'], ['"'], none, false,
          [.braced ['\x7b'] ['\x7d'] none, .sigil '$' (some "h")]⟩, none⟩,
        ⟨.string, .heredoc ⟨['<', '<'], [], none, [.sigil '$' none]⟩, none⟩], false⟩
    let t : Text :=
      ['"', '\x7b', 'a', '\x7d', '$', 'b', '"', '<', '<', 'E', '\n', '$', 'c', '\n', 'E', '\n']
    (∀ r ∈ g.rules, ∀ form ∈ r.matcher.interpolations, form.opener ≠ []) ∧ t.IsRange ⟨0, 16⟩ ∧
    ((start g t 0 16 1).all.1.map fun raw => (raw.span, raw.zones.map (·.span))) =
      [(⟨0, 7⟩, [⟨1, 4⟩, ⟨4, 6⟩]), (⟨7, 15⟩, [⟨11, 13⟩]), (⟨15, 16⟩, [])] ∧
    ∃ steps, Unfolds scanOne (start g t 0 16 1) steps ∧
      ∀ step ∈ steps, step.1.ZonesPlaced g 1 t 16 := by
  intro g t
  have hforms : ∀ r ∈ g.rules, ∀ form ∈ r.matcher.interpolations, form.opener ≠ [] := by decide
  have hrange : t.IsRange ⟨0, 16⟩ := Text.isRange_iff_exists.mpr ⟨[], t, [], rfl, rfl⟩
  obtain ⟨⟨steps, hunfolds⟩, hplaced⟩ := scan_places_zones hforms hrange 1
  exact ⟨hforms, hrange, by decide +kernel, steps, hunfolds, hplaced steps hunfolds⟩

end Scanner

end Polylex
