import Polylex.Proofs.Literal.Exhausted
import Polylex.Proofs.Literal.Zones

/-!
# How a heredoc stands in its text

What a heredoc is made of is decided by lines, and not by anything inside them: the line of its
introducer, the first line after it that holds only the label, and the lines between. All this
is known before any zone is looked for. `Polylex.Heredoc.Frame` keeps it, and a heredoc is its
frame with the zones that a scan of the lines between finds
(`Polylex.Heredoc.matchHeredoc?_eq`).

A frame cuts the text in one of three ways (`Polylex.Heredoc.Cuts`). There may be no line feed
behind the introducer; then there is no body. There may be no terminator; then everything
behind the first line is body. Otherwise the body is the lines up to the terminator, each with
its line feed.

So a heredoc that has zones has them in its body, behind the first line and in front of the
terminator (`Polylex.Heredoc.exists_content_of_matchHeredoc?`). The scan sees no more than the
body, but whatever stands behind it would make no difference to a zone: the body ends in a line
feed, which no label holds.
-/

namespace Polylex

open Literal

/-! ### Frames -/

/-- What the lines of a heredoc decide: its header, its body with the offset of that, how
long it is, and whether its terminator is missing. -/
structure Heredoc.Frame where
  header : HeredocHeader
  bodyOffset : Nat
  body : Text
  length : Nat
  missing : List Diagnostic

/-- The frame of the heredoc at the start of a text. -/
def Heredoc.frame? (spec : Heredoc) (offset : Nat) (t : Text) : Option Heredoc.Frame :=
  match header? spec t with
  | none => none
  | some header =>
    let missing := unterminatedHeredocDiagnostic header.label ⟨offset, offset + t.width⟩
    let lineLength := header.length + ((t.drop header.length).takeWhile (· != '\n')).length
    match t.drop lineLength with
    | [] => some ⟨header, offset, [], t.length, [missing]⟩
    | _ :: body =>
      let bodyOffset := offset + Text.width (t.take (lineLength + 1))
      match terminator? header.label header.indented 0 (Text.lines body) with
      | some (before, through) =>
        some ⟨header, bodyOffset, body.take before, lineLength + 1 + through, []⟩
      | none => some ⟨header, bodyOffset, body, t.length, [missing]⟩

namespace Heredoc

variable {spec : Heredoc} {literals : List Delimited} {budget offset : Nat} {t : Text}

/-- The body of a heredoc as a body to be scanned. -/
def Frame.place (f : Frame) (spec : Heredoc) (literals : List Delimited) (origin : Nat) : Place :=
  ⟨⟨origin, none, none, spec.escape, true, spec.interpolations, literals⟩, f.bodyOffset, f.body⟩

/-- The scan of the body of a heredoc, which is left out if the heredoc has no zones. -/
def Frame.scan (f : Frame) (spec : Heredoc) (literals : List Delimited) (budget origin : Nat) :
    BodyScan :=
  scanHeredocBody spec f.header literals budget origin f.bodyOffset f.body

theorem Frame.scan_eq (f : Frame) (budget origin : Nat) :
    f.scan spec literals budget origin =
      if f.header.quote = some '\'' || spec.interpolations.isEmpty then {}
      else (f.place spec literals origin).scan (scanBody budget) := rfl

/-- The scan of a body of no characters finds nothing. -/
theorem Frame.scan_nil {f : Frame} (h : f.body = []) (budget origin : Nat) :
    f.scan spec literals budget origin = {} := by
  rw [scan_eq, place, h]
  cases budget <;> exact ite_self _

/-- **A heredoc is its frame with the zones of its body.** -/
theorem matchHeredoc?_eq (spec : Heredoc) (literals : List Delimited) (budget offset : Nat)
    (t : Text) :
    matchHeredoc? spec literals budget offset t = (spec.frame? offset t).map fun f =>
      ⟨f.length, (f.scan spec literals budget offset).zones,
        f.missing ++ (f.scan spec literals budget offset).diagnostics⟩ := by
  rw [matchHeredoc?, frame?]
  cases header? spec t with
  | none => rfl
  | some header =>
    dsimp only
    generalize header.length + ((t.drop header.length).takeWhile (· != '\n')).length = n
    cases t.drop n with
    | nil =>
      rw [Option.map_some, Frame.scan_nil rfl]
      rfl
    | cons feed body =>
      dsimp only
      cases terminator? header.label header.indented 0 (Text.lines body) with
      | none => rfl
      | some found => rfl

end Heredoc

/-! ### Lines -/

/-- Lines, each with a line feed behind it. -/
def Text.unlines (lines : List Text) : Text := lines.flatMap (· ++ ['\n'])

@[simp] theorem Text.unlines_nil : unlines [] = [] := rfl

@[simp] theorem Text.unlines_cons (line : Text) (lines : List Text) :
    unlines (line :: lines) = line ++ '\n' :: unlines lines := by
  simp [unlines]

/-- Whole lines end in a line feed, if there are any. -/
theorem Text.unlines_eq_nil_or (lines : List Text) :
    unlines lines = [] ∨ ∃ before, unlines lines = before ++ ['\n'] := by
  rcases List.eq_nil_or_concat lines with rfl | ⟨front, last, rfl⟩
  · exact Or.inl rfl
  · exact Or.inr ⟨front.flatMap (· ++ ['\n']) ++ last, by simp [unlines]⟩

theorem Text.lines_ne_nil (t : Text) : lines t ≠ [] := by
  rcases t with _ | ⟨c, t⟩
  · exact List.cons_ne_nil _ _
  · rw [lines]
    split
    · exact List.cons_ne_nil _ _
    · split <;> exact List.cons_ne_nil _ _

/-- No line holds a line feed. -/
theorem Text.feed_not_mem_of_mem_lines {t line : Text} (h : line ∈ lines t) : '\n' ∉ line := by
  induction t generalizing line with
  | nil =>
    obtain rfl := List.mem_singleton.mp h
    exact List.not_mem_nil
  | cons c t ih =>
    rw [lines] at h
    split at h
    · rcases List.mem_cons.mp h with rfl | h
      · exact List.not_mem_nil
      · exact ih h
    next hfeed =>
    split at h
    next hlines => exact absurd hlines (lines_ne_nil t)
    next first rest hlines =>
      rw [hlines] at ih
      rcases List.mem_cons.mp h with rfl | h
      · rw [List.mem_cons, not_or]
        exact ⟨Ne.symm hfeed, ih List.mem_cons_self⟩
      · exact ih (List.mem_cons_of_mem _ h)

/-- **A line stands behind the lines before it**, and behind it the text or the line ends. -/
theorem Text.eq_append_of_lines {t line : Text} {front back : List Text}
    (h : lines t = front ++ line :: back) :
    ∃ after, t = unlines front ++ line ++ after ∧ (after = [] ∨ ∃ r, after = '\n' :: r) := by
  induction t generalizing front line with
  | nil =>
    rcases front with _ | ⟨first, front⟩
    · cases h
      exact ⟨[], rfl, Or.inl rfl⟩
    · obtain ⟨-, hnil⟩ := List.cons.inj h
      exact absurd hnil.symm (List.append_ne_nil_of_right_ne_nil _ (List.cons_ne_nil _ _))
  | cons c t ih =>
    rw [lines] at h
    split at h
    next hfeed =>
      subst hfeed
      rcases front with _ | ⟨first, front⟩
      · cases h
        exact ⟨'\n' :: t, rfl, Or.inr ⟨t, rfl⟩⟩
      · obtain ⟨rfl, hlines⟩ := List.cons.inj h
        obtain ⟨after, rfl, hafter⟩ := ih hlines
        exact ⟨after, by simp, hafter⟩
    next =>
    split at h
    next hlines => exact absurd hlines (lines_ne_nil t)
    next first rest hlines =>
      rcases front with _ | ⟨first', front⟩
      · cases h
        have hfirst : lines t = [] ++ first :: back := hlines
        obtain ⟨after, rfl, hafter⟩ := ih hfirst
        exact ⟨after, rfl, hafter⟩
      · obtain ⟨rfl, rfl⟩ := List.cons.inj h
        have hfront : lines t = (first :: front) ++ line :: back := hlines
        obtain ⟨after, rfl, hafter⟩ := ih hfront
        exact ⟨after, by simp, hafter⟩

/-- A text up to its first line feed. -/
theorem Text.firstFeed (t : Text) :
    ('\n' ∉ t ∧ t.takeWhile (· != '\n') = t) ∨
      ∃ line rest, t = line ++ '\n' :: rest ∧ '\n' ∉ line ∧ t.takeWhile (· != '\n') = line := by
  induction t with
  | nil => exact Or.inl ⟨List.not_mem_nil, rfl⟩
  | cons c t ih =>
    by_cases hfeed : c = '\n'
    · subst hfeed
      exact Or.inr ⟨[], t, rfl, List.not_mem_nil, rfl⟩
    · have htake : (c :: t).takeWhile (· != '\n') = c :: t.takeWhile (· != '\n') :=
        List.takeWhile_cons_of_pos (bne_iff_ne.mpr hfeed)
      rw [htake]
      rcases ih with ⟨hmem, heq⟩ | ⟨line, rest, rfl, hmem, heq⟩
      · exact Or.inl ⟨List.not_mem_cons_of_ne_of_not_mem (Ne.symm hfeed) hmem, by rw [heq]⟩
      · exact Or.inr ⟨c :: line, rest, rfl, List.not_mem_cons_of_ne_of_not_mem (Ne.symm hfeed) hmem,
          by rw [heq]⟩

namespace Heredoc

variable {spec : Heredoc} {offset : Nat} {t : Text}

/-! ### The cuts of a frame -/

/-- What is left of a line without the carriage returns at its end is its beginning. -/
theorem trimReturns_begins (line : Text) : trimReturns line <+: line := by
  rw [← List.reverse_suffix, trimReturns, List.reverse_reverse]
  exact List.dropWhile_suffix _

theorem length_terminatorPart_le (indented : Bool) (line : Text) :
    (terminatorPart indented line).length ≤ (trimReturns line).length := by
  rw [terminatorPart]
  split
  · exact (List.dropWhile_sublist _).length_le
  · exact Nat.le_refl _

/-- The line that introduces a heredoc, with its line feed. -/
structure Introduces (spec : Heredoc) (t : Text) (header : HeredocHeader) (line : Text) : Prop where
  header_eq : header? spec t = some header
  reads : line <+: t
  feed : ∃ tail, line = t.take header.length ++ tail ++ ['\n'] ∧ '\n' ∉ tail

/-- A line that terminates a heredoc: it holds only the label, and no line before it does. The
line ends with the text or with a line feed. -/
structure Terminates (header : HeredocHeader) (front : List Text) (line after : Text) : Prop where
  label : terminatorPart header.indented line = header.label
  whole : '\n' ∉ line
  stops : after = [] ∨ ∃ r, after = '\n' :: r
  first : ∀ l ∈ front, '\n' ∉ l ∧ terminatorPart header.indented l ≠ header.label

/-- **How a frame cuts the text at whose start the heredoc stands.** -/
inductive Cuts (spec : Heredoc) (offset : Nat) (t : Text) : Frame → Prop
  | bare {header : HeredocHeader} {missing : List Diagnostic}
      (feed : '\n' ∉ t.drop header.length) :
      Cuts spec offset t ⟨header, offset, [], t.length, missing⟩
  | terminated {header : HeredocHeader} {opening line after : Text} {front : List Text}
      (introduces : Introduces spec t header opening)
      (cut : t = opening ++ Text.unlines front ++ line ++ after)
      (terminates : Terminates header front line after) :
      Cuts spec offset t ⟨header, offset + opening.width, Text.unlines front,
        (opening ++ Text.unlines front ++ trimReturns line).length, []⟩
  | unterminated {header : HeredocHeader} {opening body : Text}
      (introduces : Introduces spec t header opening) (cut : t = opening ++ body) :
      Cuts spec offset t ⟨header, offset + opening.width, body, t.length,
        [unterminatedHeredocDiagnostic header.label ⟨offset, offset + t.width⟩]⟩

/-- The terminator that is found, with the lines before it and the characters up to it. -/
theorem exists_of_terminator? {label : Text} {indented : Bool} {before b through : Nat}
    {lines : List Text} (h : terminator? label indented before lines = some (b, through)) :
    ∃ front line back, lines = front ++ line :: back ∧ terminatorPart indented line = label ∧
      (∀ l ∈ front, terminatorPart indented l ≠ label) ∧
      b = before + (Text.unlines front).length ∧ through = b + (trimReturns line).length := by
  induction lines generalizing before with
  | nil => cases h
  | cons line rest ih =>
    rw [terminator?] at h
    split at h
    next hlabel =>
      have hpart := length_terminatorPart_le indented line
      rw [hlabel] at h hpart
      cases h
      refine ⟨[], line, rest, rfl, hlabel, List.forall_mem_nil _, rfl, ?_⟩
      omega
    next hlabel =>
      obtain ⟨front, last, back, rfl, hlast, hfront, rfl, rfl⟩ := ih h
      refine ⟨line :: front, last, back, rfl, hlast, List.forall_mem_cons.mpr ⟨hlabel, hfront⟩, ?_,
        rfl⟩
      rw [Text.unlines_cons, List.length_append, List.length_cons]
      omega

/-- The introducing line goes up to the first line feed behind the header. -/
theorem exists_introduces {header : HeredocHeader} {tail body : Text}
    (hheader : header? spec t = some header)
    (hcut : t.drop header.length = tail ++ '\n' :: body) (hfeed : '\n' ∉ tail) :
    ∃ opening, Introduces spec t header opening ∧ t = opening ++ body ∧
      opening.length = header.length + tail.length + 1 := by
  have ht : t = t.take header.length ++ tail ++ ['\n'] ++ body := by
    rw [List.append_assoc, List.append_assoc, List.singleton_append, ← hcut,
      List.take_append_drop]
  have hle : header.length ≤ t.length := by
    have hpos : 0 < (t.drop header.length).length := by
      rw [hcut, List.length_append, List.length_cons]
      omega
    rw [List.length_drop] at hpos
    omega
  refine ⟨_, ⟨hheader, ⟨body, ht.symm⟩, tail, rfl, hfeed⟩, ht, ?_⟩
  rw [List.length_append, List.length_append, List.length_take_of_le hle]
  rfl

/-- The frame of a heredoc without a line feed behind its header. -/
theorem frame?_of_no_feed {header : HeredocHeader} (hheader : header? spec t = some header)
    (hfeed : '\n' ∉ t.drop header.length) :
    spec.frame? offset t = some ⟨header, offset, [], t.length,
      [unterminatedHeredocDiagnostic header.label ⟨offset, offset + t.width⟩]⟩ := by
  have hline : (t.drop header.length).takeWhile (· != '\n') = t.drop header.length := by
    rcases Text.firstFeed (t.drop header.length) with ⟨-, hline⟩ | ⟨tail, body, hcut, -⟩
    · exact hline
    · rw [hcut] at hfeed
      exact absurd (List.mem_append_right _ List.mem_cons_self) hfeed
  have hend : t.drop (header.length + (t.drop header.length).length) = [] := by
    rw [← List.drop_drop, List.drop_length]
  rw [frame?, hheader]
  dsimp only
  rw [hline, hend]

/-- The frame of a heredoc with a line feed behind its header depends on whether there is a
terminator among the lines behind that. -/
theorem frame?_of_feed {header : HeredocHeader} {tail body : Text}
    (hheader : header? spec t = some header)
    (hcut : t.drop header.length = tail ++ '\n' :: body) (hfeed : '\n' ∉ tail) :
    spec.frame? offset t = some
      (match terminator? header.label header.indented 0 (Text.lines body) with
      | some (before, through) =>
        ⟨header, offset + Text.width (t.take (header.length + tail.length + 1)), body.take before,
          header.length + tail.length + 1 + through, []⟩
      | none =>
        ⟨header, offset + Text.width (t.take (header.length + tail.length + 1)), body, t.length,
          [unterminatedHeredocDiagnostic header.label ⟨offset, offset + t.width⟩]⟩) := by
  have htail : ∀ c ∈ tail, (c != '\n') = true := by
    intro c hc
    exact bne_iff_ne.mpr fun h => hfeed (h ▸ hc)
  have hline : (tail ++ '\n' :: body).takeWhile (· != '\n') = tail := by
    rw [List.takeWhile_append_of_pos htail]
    exact List.append_nil tail
  rw [frame?, hheader]
  dsimp only
  rw [hcut, hline, ← List.drop_drop, hcut, List.drop_left]
  dsimp only
  cases terminator? header.label header.indented 0 (Text.lines body) with
  | none => rfl
  | some found => rfl

/-- **Every frame cuts its text.** -/
theorem cuts_of_frame? {f : Frame} (h : spec.frame? offset t = some f) : Cuts spec offset t f := by
  obtain ⟨header, hheader⟩ : ∃ header, header? spec t = some header := by
    refine Option.ne_none_iff_exists'.mp fun hnone => ?_
    rw [frame?, hnone] at h
    cases h
  rcases Text.firstFeed (t.drop header.length) with ⟨hfeed, -⟩ | ⟨tail, body, hcut, hfeed, -⟩
  · rw [frame?_of_no_feed hheader hfeed] at h
    cases h
    exact .bare hfeed
  obtain ⟨opening, hintroduces, ht, hlength⟩ := exists_introduces hheader hcut hfeed
  have htake : t.take (header.length + tail.length + 1) = opening := by
    rw [← hlength, ht, List.take_left]
  rw [frame?_of_feed hheader hcut hfeed, htake, Option.some_inj] at h
  subst h
  split
  next b through hfound =>
    obtain ⟨front, line, back, hlines, hlabel, hfront, rfl, rfl⟩ := exists_of_terminator? hfound
    obtain ⟨after, hbody, hafter⟩ := Text.eq_append_of_lines hlines
    have hwhole : ∀ l ∈ front ++ line :: back, '\n' ∉ l := fun l hl =>
      Text.feed_not_mem_of_mem_lines (hlines ▸ hl)
    have hterminates : Terminates header front line after :=
      ⟨hlabel, hwhole line (List.mem_append_right _ List.mem_cons_self), hafter, fun l hl =>
        ⟨hwhole l (List.mem_append_left _ hl), hfront l hl⟩⟩
    have hcut' : t = opening ++ Text.unlines front ++ line ++ after := by
      rw [ht, hbody, List.append_assoc, List.append_assoc, List.append_assoc]
    have htaken : body.take (0 + (Text.unlines front).length) = Text.unlines front := by
      rw [Nat.zero_add, hbody, List.append_assoc, List.take_left]
    have hreach : header.length + tail.length + 1 +
        (0 + (Text.unlines front).length + (trimReturns line).length) =
          (opening ++ Text.unlines front ++ trimReturns line).length := by
      rw [List.length_append, List.length_append, hlength]
      omega
    rw [htaken, hreach]
    exact .terminated hintroduces hcut' hterminates
  next => exact .unterminated hintroduces ht

/-! ### The content of a heredoc -/

variable {literals : List Delimited} {budget : Nat}

/-- The zones of the body of a heredoc are in the body. -/
theorem zones_scan (hforms : ∀ form ∈ spec.interpolations, form.opener ≠ []) (f : Frame)
    (origin : Nat) :
    ZonesIn f.bodyOffset f.body (f.scan spec literals budget origin).zones ∧
      ∀ z ∈ (f.scan spec literals budget origin).zones,
        0 < budget ∧ Declared spec.interpolations f.bodyOffset f.body z := by
  rw [Frame.scan_eq]
  split
  · exact ⟨trivial, List.forall_mem_nil _⟩
  · obtain ⟨search, hsearched, hsound, hscan⟩ := exists_search budget
    have hhost : ∀ form ∈ (f.place spec literals origin).host.forms, form.opener ≠ [] := hforms
    rw [Place.scan, hscan]
    obtain ⟨content, hholds⟩ := exists_content_scanFrom hhost hsound false
      (f.place spec literals origin).offset (f.place spec literals origin).text
    exact ⟨hholds.zonesIn, fun z hz => ⟨hsearched (hholds.declared z hz).1,
      (hholds.declared z hz).2⟩⟩

/-- **What stands around the body of a heredoc**, in the text and in what is reported: the
introducing line in front of it, and behind it the terminator, without the carriage returns of
its line, or else nothing, which is reported. -/
inductive Encloses (spec : Heredoc) (offset : Nat) (t : Text) (reports : List Diagnostic) :
    (opening body closing : Text) → Prop
  | terminated {header : HeredocHeader} {opening line after : Text} {front : List Text}
      (introduces : Introduces spec t header opening)
      (cut : t = opening ++ Text.unlines front ++ line ++ after)
      (terminates : Terminates header front line after) :
      Encloses spec offset t reports opening (Text.unlines front) (trimReturns line)
  | unterminated {header : HeredocHeader} {opening body : Text}
      (introduces : Introduces spec t header opening) (cut : t = opening ++ body)
      (reported :
        unterminatedHeredocDiagnostic header.label ⟨offset, offset + t.width⟩ ∈ reports) :
      Encloses spec offset t reports opening body []

/-- **A heredoc holds its zones in its body.** -/
theorem exists_content_of_matchHeredoc? {found : Found}
    (hforms : ∀ form ∈ spec.interpolations, form.opener ≠ [])
    (h : matchHeredoc? spec literals budget offset t = some found) :
    ∃ opening body closing,
      found.Holds spec.interpolations budget offset t opening body closing ∧
      (found.zones ≠ [] → Encloses spec offset t found.diagnostics opening body closing) := by
  rw [matchHeredoc?_eq, Option.map_eq_some_iff] at h
  obtain ⟨f, hframe, rfl⟩ := h
  obtain ⟨hzones, hdeclared⟩ :
      ZonesIn f.bodyOffset f.body (f.scan spec literals budget offset).zones ∧
        ∀ z ∈ (f.scan spec literals budget offset).zones,
          0 < budget ∧ Declared spec.interpolations f.bodyOffset f.body z :=
    zones_scan hforms f offset
  rcases cuts_of_frame? hframe with
    ⟨hfeed⟩ | ⟨hintroduces, hcut, hterminates⟩ | ⟨hintroduces, hcut⟩
  · rw [Frame.scan_nil rfl]
    have hall : t ++ [] ++ [] = t := by rw [List.append_nil, List.append_nil]
    refine ⟨t, [], [], ⟨?_, ?_, trivial, List.forall_mem_nil _⟩, fun hne => absurd rfl hne⟩
    · exact ⟨[], by rw [hall, List.append_nil]⟩
    · rw [hall]
  next header opening line after front =>
    refine ⟨opening, Text.unlines front, trimReturns line, ⟨?_, rfl, hzones, fun z hz => ?_⟩,
      fun _ => .terminated hintroduces hcut hterminates⟩
    · rw [hcut, List.append_assoc _ line after]
      exact (List.prefix_append_right_inj _).mpr
        ((trimReturns_begins line).trans (List.prefix_append line after))
    · obtain ⟨hpos, hz⟩ := hdeclared z hz
      have hwhole := (hz.append (line ++ after) (Text.unlines_eq_nil_or front)).prepend opening
      rw [hcut, List.append_assoc, List.append_assoc]
      exact ⟨hpos, hwhole⟩
  next header opening body =>
    have hall : opening ++ body ++ [] = t := by rw [List.append_nil, hcut]
    refine ⟨opening, body, [], ⟨?_, ?_, hzones, fun z hz => ?_⟩,
      fun _ => .unterminated hintroduces hcut List.mem_cons_self⟩
    · exact ⟨[], by rw [hall, List.append_nil]⟩
    · rw [hall]
    · obtain ⟨hpos, hz⟩ := hdeclared z hz
      rw [hcut]
      exact ⟨hpos, hz.prepend opening⟩

/-- **A heredoc fits the text**, terminated or not. -/
theorem fits_of_matchHeredoc? {found : Found}
    (hforms : ∀ form ∈ spec.interpolations, form.opener ≠ [])
    (h : matchHeredoc? spec literals budget offset t = some found) :
    found.Fits spec.interpolations budget offset t := by
  obtain ⟨opening, body, closing, hholds, -⟩ := exists_content_of_matchHeredoc? hforms h
  exact hholds.fits

end Heredoc

end Polylex
