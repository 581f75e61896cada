import Polylex.Proofs.FirstMatch
import Polylex.Proofs.Tiling

/-!
# What is reported about a literal, and where

A report names places of the text: the span it is about, and those of its related places. This
file says of each report about a literal that it is a warning and that all its places are ranges
of the text which do not reach beyond what the literal could read
(`Polylex.Diagnostic.WarnsIn`).

The places are worked out from different offsets. An opening delimiter that is kept as text is
reported where it stands, far inside the body perhaps, and the report points back to the start of
the literal; a literal without end is reported from its start up to where it was given up; and a
heredoc without a terminator up to the end of the text. What they have in common is that the
offset carried along is never in front of the start of the literal and that a piece of the text
stands there (`Polylex.Text.At`). So the induction is along the segments of a body, with the start
of the literal kept fixed.
-/

namespace Polylex

/-! ### Places of a report -/

theorem Span.encloses_self (s : Span) : s.encloses s = true :=
  encloses_iff.mpr ⟨Nat.le_refl _, Nat.le_refl _⟩

theorem Span.encloses_trans {s u v : Span} (h : s.encloses u = true) (h' : u.encloses v = true) :
    s.encloses v = true := by
  rw [encloses_iff] at *
  exact ⟨Nat.le_trans h.1 h'.1, Nat.le_trans h'.2 h.2⟩

namespace Diagnostic

/-- The places that a report names: the span it is about, and its related places. -/
def places (d : Diagnostic) : List Span := d.span :: d.related.map (·.span)

/-- **A report is a warning about a part of the text**: all places it names are ranges of the
text inside a span. -/
structure WarnsIn (t : Text) (span : Span) (d : Diagnostic) : Prop where
  warning : d.severity = .warning
  places : ∀ place ∈ d.places, t.IsRange place ∧ span.encloses place = true

variable {t : Text} {span outer : Span} {d : Diagnostic}

theorem WarnsIn.mono (h : d.WarnsIn t span) (houter : outer.encloses span = true) :
    d.WarnsIn t outer :=
  ⟨h.warning, fun place hplace =>
    ⟨(h.places place hplace).1, Span.encloses_trans houter (h.places place hplace).2⟩⟩

theorem warnsIn_new {code : DiagnosticCode} {message : String} {place : Span}
    (hrange : t.IsRange place) (hspan : span.encloses place = true) :
    (new code message place).WarnsIn t span := by
  refine ⟨rfl, fun place' hplace => ?_⟩
  obtain rfl := List.mem_singleton.mp hplace
  exact ⟨hrange, hspan⟩

theorem WarnsIn.withRelated (h : d.WarnsIn t span) {message : String} {place : Span}
    (hrange : t.IsRange place) (hspan : span.encloses place = true) :
    (d.withRelated message place).WarnsIn t span := by
  refine ⟨h.warning, fun place' hplace => ?_⟩
  have hor : place' ∈ d.places ∨ place' = place := by
    simpa [Diagnostic.places, Diagnostic.withRelated, or_assoc] using hplace
  rcases hor with hold | rfl
  · exact h.places place' hold
  · exact ⟨hrange, hspan⟩

end Diagnostic

namespace Literal

open Diagnostic

variable {search : Option CloserSearch} {host : Host} {budget offset : Nat} {t m : Text}

/-! ### Bodies -/

/-- A piece at the start of what is left of a text, in a literal that has started before. -/
theorem isRange_piece {p r : Text} {origin : Nat} (hat : t.At offset (p ++ r))
    (hle : origin ≤ offset) :
    t.IsRange ⟨offset, offset + p.width⟩ ∧
      Span.encloses ⟨origin, offset + (p ++ r).width⟩ ⟨offset, offset + p.width⟩ = true := by
  refine ⟨hat.left.isRange, Span.encloses_iff.mpr ⟨hle, ?_⟩⟩
  rw [Text.width_append]
  exact Nat.add_le_add_left (Nat.le_add_right _ _) offset

/-- What is reported about a segment of a body. -/
theorem warnsIn_of_mem_segment {seg : Segment} {rest : Text} (horigin : t.IsBoundary host.origin)
    (hat : t.At offset (seg.text ++ rest)) (hle : host.origin ≤ offset) :
    ∀ d ∈ seg.diagnostics host offset,
      d.WarnsIn t ⟨host.origin, offset + (seg.text ++ rest).width⟩ := by
  obtain ⟨hrange, hspan⟩ := isRange_piece hat hle
  rcases seg with text | z | opener | opener | c
  case unmatched =>
    have hpoint : t.IsRange (Span.point host.origin) := ⟨horigin, horigin, Nat.le_refl _⟩
    have hback : Span.encloses ⟨host.origin, offset + (opener ++ rest).width⟩
        (Span.point host.origin) = true :=
      Span.encloses_iff.mpr ⟨Nat.le_refl _, Nat.le_trans hle (Nat.le_add_right _ _)⟩
    rintro d hd
    obtain rfl := List.mem_singleton.mp hd
    exact (warnsIn_new hrange hspan).withRelated hpoint hback
  case tooDeep =>
    intro d hd
    obtain rfl := List.mem_singleton.mp hd
    exact warnsIn_new hrange hspan
  all_goals exact List.forall_mem_nil _

/-- **What is reported about a body** is inside the literal, as far as the body could reach. -/
theorem warnsIn_of_mem_scanFrom (hforms : ∀ form ∈ host.forms, form.opener ≠ [])
    (hsearch : ∀ find ∈ search, CloserSearch.Sound find) (horigin : t.IsBoundary host.origin)
    (plain : Bool) (hat : t.At offset m) (hle : host.origin ≤ offset) :
    ∀ d ∈ (scanFrom search host 0 plain offset m).diagnostics,
      d.WarnsIn t ⟨host.origin, offset + m.width⟩ := by
  revert hat hle
  refine scanFrom_induction (motive := fun _ offset m s => t.At offset m → host.origin ≤ offset →
    ∀ d ∈ s.diagnostics, d.WarnsIn t ⟨host.origin, offset + m.width⟩) hforms hsearch
    (fun _ offset m _ => ?_) ?_ plain offset m
  · rcases m with _ | ⟨c, m⟩
    · exact fun _ _ => List.forall_mem_nil _
    · rw [bodyEnd]
      split <;> exact fun _ _ => List.forall_mem_nil _
  · intro plain offset seg rest s hseg ih hat hle d hd
    rcases List.mem_append.mp hd with hd | hd
    · exact warnsIn_of_mem_segment horigin hat hle d hd
    · -- Behind a segment the text ends where it did.
      have hrest := ih hat.right (Nat.le_add_right_of_le hle) d hd
      rwa [Nat.add_assoc, ← Text.width_append] at hrest

theorem warnsIn_of_mem_scanBody (hforms : ∀ form ∈ host.forms, form.opener ≠ [])
    (horigin : t.IsBoundary host.origin) (budget : Nat) (hat : t.At offset m)
    (hle : host.origin ≤ offset) :
    ∀ d ∈ (scanBody budget host offset m).diagnostics,
      d.WarnsIn t ⟨host.origin, offset + m.width⟩ := by
  obtain ⟨search, -, hsound, hscan⟩ := exists_search budget
  rw [hscan]
  exact warnsIn_of_mem_scanFrom hforms hsound horigin false hat hle

/-! ### Literals -/

/-- What is reported about a literal between delimiters. -/
theorem warnsIn_of_mem_matchDelimited? {spec : Delimited} {literals : List Delimited}
    {found : Found} (hforms : ∀ form ∈ spec.interpolations, form.opener ≠ [])
    (hat : t.At offset m) (h : matchDelimited? spec literals budget offset m = some found) :
    ∀ d ∈ found.diagnostics, d.WarnsIn t ⟨offset, offset + m.width⟩ := by
  rw [matchDelimited?] at h
  split at h
  next hopen =>
    obtain ⟨rest, rfl⟩ := List.isPrefixOf_iff_prefix.mp hopen
    rw [List.drop_left] at h
    have hhost : ∀ form ∈ (Host.ofDelimited spec offset literals).forms, form.opener ≠ [] := hforms
    have hbody := warnsIn_of_mem_scanBody hhost hat.isRange.start budget hat.right
      (Nat.le_add_right _ _)
    dsimp only at h
    generalize scanBody budget (Host.ofDelimited spec offset literals)
      (offset + spec.opener.width) rest = scan at h hbody
    cases h
    intro d hd
    rcases List.mem_append.mp hd with hd | hd
    · have hinside := hbody d hd
      rwa [Nat.add_assoc, ← Text.width_append] at hinside
    · -- The literal has been given up behind what it has read.
      split at hd
      · cases hd
      obtain rfl := List.mem_singleton.mp hd
      rw [← List.take_append_drop (spec.opener.length + scan.length) (spec.opener ++ rest)] at hat
      obtain ⟨hrange, hspan⟩ := isRange_piece hat (Nat.le_refl offset)
      rw [List.take_append_drop] at hspan
      exact warnsIn_new hrange hspan
  next => cases h

end Literal

namespace Heredoc

open Literal Diagnostic

variable {spec : Heredoc} {literals : List Delimited} {budget offset : Nat} {t m : Text}

/-- Nothing is missing from a heredoc but its terminator. -/
theorem eq_of_mem_missing {f : Frame} (h : spec.frame? offset m = some f) :
    ∀ d ∈ f.missing,
      d = unterminatedHeredocDiagnostic f.header.label ⟨offset, offset + m.width⟩ := by
  rw [frame?] at h
  split at h
  · cases h
  dsimp only at h
  split at h
  · cases h
    exact fun d hd => List.mem_singleton.mp hd
  split at h <;> cases h
  · exact List.forall_mem_nil _
  · exact fun d hd => List.mem_singleton.mp hd

/-- The body of a heredoc stands in the text, behind the start of the heredoc. -/
theorem Cuts.at_body {f : Frame} (h : Cuts spec offset m f) (hat : t.At offset m) :
    t.At f.bodyOffset f.body ∧ offset ≤ f.bodyOffset ∧
      f.bodyOffset + f.body.width ≤ offset + m.width := by
  rcases h with ⟨-⟩ | ⟨-, rfl, -⟩ | ⟨-, rfl⟩
  · have hnil : t.At offset ([] ++ m) := hat
    exact ⟨hnil.left, Nat.le_refl _, Nat.add_le_add_left (Nat.zero_le _) offset⟩
  · refine ⟨?_, Nat.le_add_right _ _, ?_⟩
    · exact hat.left.left.right
    · simp only [Text.width_append]
      omega
  · refine ⟨hat.right, Nat.le_add_right _ _, Nat.le_of_eq ?_⟩
    rw [Text.width_append, Nat.add_assoc]

/-- What is reported about a heredoc. -/
theorem warnsIn_of_mem_matchHeredoc? {found : Found}
    (hforms : ∀ form ∈ spec.interpolations, form.opener ≠ []) (hat : t.At offset m)
    (h : matchHeredoc? spec literals budget offset m = some found) :
    ∀ d ∈ found.diagnostics, d.WarnsIn t ⟨offset, offset + m.width⟩ := by
  rw [matchHeredoc?_eq, Option.map_eq_some_iff] at h
  obtain ⟨f, hframe, rfl⟩ := h
  intro d hd
  rcases List.mem_append.mp hd with hd | hd
  · obtain rfl := eq_of_mem_missing hframe d hd
    exact warnsIn_new hat.isRange (Span.encloses_self _)
  · obtain ⟨hbody, hle, hstop⟩ := (cuts_of_frame? hframe).at_body hat
    have hhost : ∀ form ∈ (f.place spec literals offset).host.forms, form.opener ≠ [] := hforms
    rw [Frame.scan_eq] at hd
    split at hd
    · cases hd
    · have hinside := warnsIn_of_mem_scanBody hhost hat.isRange.start budget hbody hle d hd
      exact hinside.mono (Span.encloses_iff.mpr ⟨Nat.le_refl _, hstop⟩)

end Heredoc

/-! ### The token at the start of a text -/

section FirstMatch

variable {budget offset : Nat} {t m : Text}

theorem Matcher.warnsIn_of_mem_match? {matcher : Matcher} {literals : List Delimited}
    {found : Literal.Found} (hforms : ∀ form ∈ matcher.interpolations, form.opener ≠ [])
    (hat : t.At offset m) (h : matcher.match? literals budget offset m = some found) :
    ∀ d ∈ found.diagnostics, d.WarnsIn t ⟨offset, offset + m.width⟩ := by
  cases matcher with
  | literal text =>
    rw [match?_literal] at h
    split at h <;> cases h
    exact List.forall_mem_nil _
  | keyword text =>
    rw [match?_keyword] at h
    split at h <;> cases h
    exact List.forall_mem_nil _
  | chars cls repeats =>
    obtain ⟨n, -, rfl⟩ := Option.map_eq_some_iff.mp h
    exact List.forall_mem_nil _
  | pattern p =>
    obtain ⟨n, -, rfl⟩ := Option.map_eq_some_iff.mp h
    exact List.forall_mem_nil _
  | delimited spec => exact Literal.warnsIn_of_mem_matchDelimited? hforms hat h
  | heredoc spec => exact Heredoc.warnsIn_of_mem_matchHeredoc? hforms hat h

/-- **What is reported about the token at the start of a text** are warnings about that text. -/
theorem Grammar.warnsIn_of_mem_firstMatch {g : Grammar}
    (hforms : ∀ r ∈ g.rules, ∀ form ∈ r.matcher.interpolations, form.opener ≠ [])
    (hat : t.At offset m) :
    ∀ d ∈ (g.firstMatch budget offset m).diagnostics, d.WarnsIn t ⟨offset, offset + m.width⟩ := by
  rw [firstMatch_eq]
  cases hfound : firstOf g.literals budget offset m 0 g.rules with
  | none => exact List.forall_mem_nil _
  | some first =>
    obtain ⟨k, r, found, hr, hmatch, rfl, -⟩ := exists_rule_of_firstOf hfound
    exact Matcher.warnsIn_of_mem_match? (hforms r (List.mem_of_getElem? hr)) hat hmatch

end FirstMatch

end Polylex
