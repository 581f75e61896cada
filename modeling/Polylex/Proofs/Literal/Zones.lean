import Polylex.Proofs.Literal.Segment
import Polylex.Literal.Match

/-!
# Where the zones of a literal are

The zones of a literal follow each other in the text without touching anything else:
`Polylex.Literal.ZonesIn` says that a text contains some zones, in order and apart from
each other, each at the offset it claims and standing in the text as its opening delimiter,
its expression and its closing delimiter. Splicing relies on nothing else.

A literal has more to it than its zones. What it reads is an opening part, a content and a
closing part, and the zones are in the content; and every zone is of one of the declared forms,
in front of the text that follows it (`Polylex.Literal.Declared`). This is
`Polylex.Literal.Found.Holds`. It is found by an induction along the segments of a body
(`Polylex.Literal.exists_content_scanFrom`), and for literals between delimiters the closing
part is the closing delimiter, or nothing at all, which is reported
(`Polylex.Literal.exists_content_of_matchDelimited?`).

A match at the start of a text *fits* it (`Polylex.Literal.Found.Fits`) if it does not
reach beyond the text, its zones are in what it reads, and every zone is of one of the
declared forms. What holds its zones in a content fits.
-/

namespace Polylex

namespace Literal

variable {search : Option CloserSearch} {host : Host} {plain : Bool} {offset budget : Nat}
variable {t p r : Text} {z : Zone} {zs : List Zone}

/-! ### Zones in a text -/

/-- **The zones that a text at an offset contains**, in order and apart from each other. -/
def ZonesIn : Nat → Text → List Zone → Prop
  | _, _, [] => True
  | offset, t, z :: zs => ∃ before after, t = before ++ z.text ++ after ∧
      z.start = offset + before.width ∧ z.opener ≠ [] ∧ ZonesIn z.stop after zs

theorem ZonesIn.prepend (p : Text) (h : ZonesIn (offset + p.width) t zs) :
    ZonesIn offset (p ++ t) zs := by
  cases zs with
  | nil => trivial
  | cons z zs =>
    obtain ⟨before, after, rfl, hstart, hopener, hrest⟩ := h
    exact ⟨p ++ before, after, by simp, by simp [hstart, Nat.add_assoc], hopener, hrest⟩

theorem ZonesIn.append (s : Text) (h : ZonesIn offset t zs) : ZonesIn offset (t ++ s) zs := by
  induction zs generalizing offset t with
  | nil => trivial
  | cons z zs ih =>
    obtain ⟨before, after, rfl, hstart, hopener, hrest⟩ := h
    exact ⟨before, after ++ s, by simp, hstart, hopener, ih hrest⟩

/-- The zones of a piece stand in the text where they claim to stand. -/
theorem ZonesIn.at_of_mem (hzones : ZonesIn offset p zs) (hat : Text.At t offset p) (hz : z ∈ zs) :
    Text.At t z.start z.text := by
  induction zs generalizing offset p with
  | nil => cases hz
  | cons z' zs ih =>
    obtain ⟨before, after, rfl, hstart, -, hrest⟩ := hzones
    rw [List.append_assoc] at hat
    have hzone : Text.At t z'.start (z'.text ++ after) := hstart ▸ hat.right
    rcases List.mem_cons.mp hz with rfl | hz
    · exact hzone.left
    · exact ih hrest (z'.start_add_width_text ▸ hzone.right) hz

/-- The zones of a piece are not in front of it, and each begins with its opening
delimiter. -/
theorem ZonesIn.bounds_of_mem (hzones : ZonesIn offset p zs) (hz : z ∈ zs) :
    offset ≤ z.start ∧ z.start < z.bodyStart := by
  induction zs generalizing offset p with
  | nil => cases hz
  | cons z' zs ih =>
    obtain ⟨before, after, -, hstart, hopener, hrest⟩ := hzones
    rcases List.mem_cons.mp hz with rfl | hz
    · exact ⟨hstart ▸ Nat.le_add_right _ _, Nat.lt_add_of_pos_right (Text.width_pos hopener)⟩
    · obtain ⟨hle, hlt⟩ := ih hrest hz
      have hwidth : z'.start + z'.text.width = z'.stop := z'.start_add_width_text
      exact ⟨by omega, hlt⟩

/-- The expression of a zone stands behind the opening delimiter. -/
theorem at_bodyStart (h : Text.At t z.start z.text) : Text.At t z.bodyStart z.body := by
  rw [Zone.text, List.append_assoc] at h
  exact h.right.left

/-- The zones of a piece follow each other. -/
theorem ZonesIn.pairwise (hzones : ZonesIn offset p zs) :
    zs.Pairwise fun z z' => z.stop ≤ z'.start := by
  induction zs generalizing offset p with
  | nil => exact .nil
  | cons z zs ih =>
    obtain ⟨before, after, -, -, -, hrest⟩ := hzones
    exact .cons (fun z' hz' => (hrest.bounds_of_mem hz').1) (ih hrest)

/-- The zones of a piece do not reach beyond it. -/
theorem ZonesIn.stop_le_of_mem (hzones : ZonesIn offset p zs) (hz : z ∈ zs) :
    z.stop ≤ offset + p.width := by
  induction zs generalizing offset p with
  | nil => cases hz
  | cons z' zs ih =>
    obtain ⟨before, after, rfl, hstart, -, hrest⟩ := hzones
    have hstop : z'.stop + after.width = offset + Text.width (before ++ z'.text ++ after) := by
      rw [← z'.start_add_width_text, hstart, Text.width_append, Text.width_append]
      omega
    rcases List.mem_cons.mp hz with rfl | hz
    · omega
    · exact hstop ▸ ih hrest hz

/-! ### Zones of a form -/

/-- **A zone of a text at an offset is declared** by some forms: it stands in the text and is of
one of them, in front of the text that follows it. -/
def Declared (forms : List Interpolation) (offset : Nat) (t : Text) (z : Zone) : Prop :=
  ∃ before rest, t = before ++ z.text ++ rest ∧ z.start = offset + before.width ∧
    ∃ form ∈ forms, FitsForm z rest form

theorem Declared.prepend {forms : List Interpolation} (p : Text)
    (h : Declared forms (offset + p.width) t z) : Declared forms offset (p ++ t) z := by
  obtain ⟨before, rest, rfl, hstart, hform⟩ := h
  exact ⟨p ++ before, rest, by simp, by simp [hstart, Nat.add_assoc], hform⟩

/-- Of two texts the first is what is taken from both if its characters are taken and the next
one is not. -/
theorem length_eq_takeWhile_iff {take : Char → Bool} :
    p.length = ((p ++ r).takeWhile take).length ↔
      (∀ c ∈ p, take c = true) ∧ ∀ c ∈ r.head?, take c = false := by
  induction p with
  | nil =>
    rcases r with _ | ⟨c, r⟩
    · simp
    · rcases hc : take c with _ | _ <;> simp [hc]
  | cons c p ih =>
    rcases hc : take c with _ | _
    · simp [hc]
    · simpa [hc] using ih

/-- **A whole label in front of a rest**: it begins as labels do and goes on as they do, and the
rest does not go on. -/
def IsLabel (label rest : Text) : Prop :=
  ∃ c body, label = c :: body ∧ beginsLabel c = true ∧ (∀ d ∈ body, continuesLabel d = true) ∧
    ∀ d ∈ rest.head?, continuesLabel d = false

/-- Whole labels are what the length of a label counts. -/
theorem isLabel_iff : IsLabel p r ↔ p ≠ [] ∧ p.length = labelLength (p ++ r) := by
  rcases p with _ | ⟨c, p⟩
  · exact iff_of_false (fun ⟨_, _, hnil, _⟩ => nomatch hnil) fun h => h.1 rfl
  have hlength : (c :: p).length = labelLength (c :: p ++ r) ↔ beginsLabel c = true ∧
      (∀ d ∈ p, continuesLabel d = true) ∧ ∀ d ∈ r.head?, continuesLabel d = false := by
    rw [← length_eq_takeWhile_iff, List.cons_append, labelLength]
    split
    next hbegins =>
      rw [List.length_cons, Nat.add_comm, Nat.add_left_cancel_iff]
      exact (and_iff_right hbegins).symm
    next hbegins => exact iff_of_false (Nat.succ_ne_zero _) fun h => hbegins h.1
  rw [hlength, and_iff_right (List.cons_ne_nil c p)]
  constructor
  · rintro ⟨c', p', hcons, hparts⟩
    cases hcons
    exact hparts
  · intro hparts
    exact ⟨c, p, rfl, hparts⟩

/-- A label holds none of the characters that neither begin nor continue a label. -/
theorem IsLabel.not_mem {c : Char} (hbegins : beginsLabel c = false)
    (hcontinues : continuesLabel c = false) (h : IsLabel p r) : c ∉ p := by
  obtain ⟨d, p, rfl, hd, hp, -⟩ := h
  rintro (_ | ⟨_, hmem⟩)
  · rw [hbegins] at hd
    cases hd
  · rw [hp _ hmem] at hcontinues
    cases hcontinues

/-- A label holds no line feed. -/
theorem IsLabel.feed_not_mem (h : IsLabel p r) : '\n' ∉ p := h.not_mem rfl rfl

/-- Only the first character behind a label matters. -/
theorem IsLabel.append (s : Text) (hr : r ≠ []) (h : IsLabel p r) : IsLabel p (r ++ s) := by
  obtain ⟨d, r, rfl⟩ := List.exists_cons_of_ne_nil hr
  exact h

theorem FitsForm.isLabel {mark : Char} {g : Option String} (h : FitsForm z r (.sigil mark g)) :
    IsLabel z.body r :=
  isLabel_iff.mpr h.2.2.2

/-- **A zone in whole lines is declared whatever stands behind the lines.** -/
theorem Declared.append {forms : List Interpolation} (s : Text)
    (hlines : t = [] ∨ ∃ before, t = before ++ ['\n']) (h : Declared forms offset t z) :
    Declared forms offset (t ++ s) z := by
  obtain ⟨before, rest, rfl, hstart, form, hform, hfits⟩ := h
  refine ⟨before, rest ++ s, by simp, hstart, form, hform, ?_⟩
  rcases form with ⟨opener, closer, g⟩ | ⟨mark, g⟩
  · exact hfits
  have hlabel := hfits.isLabel
  obtain ⟨hopener, hcloser, hgrammar, hbody, -⟩ := hfits
  have hrest : rest ≠ [] := by
    rintro rfl
    -- The zone would end with the lines, and so its label with a line feed.
    obtain ⟨body, c, hlast⟩ := (List.eq_nil_or_concat z.body).resolve_left hbody
    rw [List.concat_eq_append] at hlast
    rw [Zone.text, hcloser, hlast, List.append_nil, List.append_nil, ← List.append_assoc,
      ← List.append_assoc] at hlines
    rcases hlines with hnil | ⟨lines, hfeed⟩
    · exact List.append_ne_nil_of_right_ne_nil _ (List.cons_ne_nil c []) hnil
    · obtain ⟨-, hc⟩ := List.append_inj' hfeed rfl
      cases hc
      exact hlabel.feed_not_mem (hlast ▸ List.mem_append_right _ List.mem_cons_self)
  exact ⟨hopener, hcloser, hgrammar, isLabel_iff.mp (hlabel.append s hrest)⟩

/-! ### The content of a body -/

/-- What a scan has read behind the content: the closing delimiter, if it has found it. -/
def BodyScan.closing (host : Host) (s : BodyScan) : Text :=
  if s.closed then host.closer.getD [] else []

/-- **A scan of the body at the start of a text holds its zones in a content**: it reads the
content and the closing delimiter, if there is one; its zones are in the content and declared by
the forms of the literal. Without a search there are none. -/
structure BodyScan.Holds (search : Option CloserSearch) (host : Host) (offset : Nat)
    (t content : Text) (s : BodyScan) : Prop where
  reads : content ++ s.closing host <+: t
  length_eq : s.length = (content ++ s.closing host).length
  zones : ZonesIn offset content s.zones
  declared : ∀ z ∈ s.zones, search.isSome ∧ Declared host.forms offset t z

theorem BodyScan.Holds.zonesIn {content : Text} {s : BodyScan}
    (h : s.Holds search host offset t content) : ZonesIn offset t s.zones := by
  obtain ⟨rest, rfl⟩ := h.reads
  rw [List.append_assoc]
  exact h.zones.append _

/-- Where a literal closes, its closing delimiter stands. -/
theorem exists_closer_of_closingLength? {n : Nat} (h : host.closingLength? t = some n) :
    ∃ closer, host.closer = some closer ∧ closer <+: t ∧ n = closer.length := by
  rw [Host.closingLength?] at h
  split at h
  next closer hcloser =>
    split at h
    next hbegins =>
      cases h
      exact ⟨closer, hcloser, List.isPrefixOf_iff_prefix.mp hbegins, rfl⟩
    next => cases h
  next => cases h

/-- Where the body ends there is no content. -/
theorem holds_bodyEnd (offset : Nat) (t : Text) :
    (bodyEnd host t).Holds search host offset t [] := by
  rcases t with _ | ⟨c, t⟩
  · exact ⟨List.nil_prefix, rfl, trivial, List.forall_mem_nil _⟩
  rcases hclose : host.closingLength? (c :: t) with _ | n
  · simp only [bodyEnd, hclose]
    exact ⟨List.nil_prefix, rfl, trivial, List.forall_mem_nil _⟩
  · simp only [bodyEnd, hclose]
    obtain ⟨closer, hcloser, hbegins, rfl⟩ := exists_closer_of_closingLength? hclose
    have hclosing : BodyScan.closing host ⟨closer.length, true, [], []⟩ = closer := by
      rw [BodyScan.closing, if_pos rfl, hcloser]
      rfl
    refine ⟨?_, ?_, trivial, List.forall_mem_nil _⟩
    · rw [hclosing]
      exact hbegins
    · rw [hclosing]
      rfl

theorem zone_of_firstSegment? (hsearch : ∀ find ∈ search, CloserSearch.Sound find)
    (h : firstSegment? search host plain offset t = some (.zone z)) :
    (Opening.zone z).Stands search offset t host.forms := by
  cases t with
  | nil => cases h
  | cons c t =>
    rw [firstSegment?] at h
    split at h
    · cases h
    split at h
    · cases h
    split at h
    · cases h
    split at h
    · cases h
    next o ho =>
    split at ho
    · cases ho
    have hstands := stands_of_opening? hsearch ho
    cases o <;> cases h
    exact hstands

/-- **The zones of a body are in its content.** -/
theorem exists_content_scanFrom (hforms : ∀ form ∈ host.forms, form.opener ≠ [])
    (hsearch : ∀ find ∈ search, CloserSearch.Sound find) (plain : Bool) (offset : Nat) (t : Text) :
    ∃ content, (scanFrom search host 0 plain offset t).Holds search host offset t content := by
  refine scanFrom_induction
    (motive := fun _ offset t s => ∃ content, s.Holds search host offset t content) hforms
    hsearch (fun _ offset t _ => ⟨[], holds_bodyEnd offset t⟩) ?_ plain offset t
  rintro plain offset seg rest s hseg ⟨content, hreads, hlength, hzones, hdeclared⟩
  have hclosing : (s.after host offset seg).closing host = s.closing host := rfl
  refine ⟨seg.text ++ content, ?_, ?_, ?_, ?_⟩
  · rw [hclosing, List.append_assoc]
    exact (List.prefix_append_right_inj _).mpr hreads
  · rw [hclosing, BodyScan.after, hlength]
    simp only [List.length_append]
    omega
  · rcases seg with text | z | opener | opener | c
    case zone =>
      obtain ⟨-, hstart, rest', ht, form, hform, hfits⟩ := zone_of_firstSegment? hsearch hseg
      have hopener : z.opener ≠ [] := hfits.opener_eq ▸ hforms form hform
      rw [Segment.text, ← hstart, Zone.start_add_width_text] at hzones
      exact ⟨[], content, rfl, hstart, hopener, hzones⟩
    all_goals exact hzones.prepend _
  · intro z hz
    rcases List.mem_append.mp hz with hz | hz
    · rcases seg with text | z' | opener | opener | c
      case zone =>
        obtain rfl : z = z' := List.mem_singleton.mp hz
        obtain ⟨hsome, hstart, rest', ht, hform⟩ := zone_of_firstSegment? hsearch hseg
        exact ⟨hsome, [], rest', ht, hstart, hform⟩
      all_goals cases hz
    · obtain ⟨hsome, hz⟩ := hdeclared z hz
      exact ⟨hsome, hz.prepend _⟩

/-- No scan of a body reports that a literal is unterminated. -/
theorem code_of_mem_scanFrom (hforms : ∀ form ∈ host.forms, form.opener ≠ [])
    (hsearch : ∀ find ∈ search, CloserSearch.Sound find) (plain : Bool) (offset : Nat) (t : Text) :
    ∀ d ∈ (scanFrom search host 0 plain offset t).diagnostics, d.code ≠ .unterminatedRegion := by
  refine scanFrom_induction
    (motive := fun _ _ _ s => ∀ d ∈ s.diagnostics, d.code ≠ .unterminatedRegion) hforms hsearch
    (fun _ _ t _ => ?_) ?_ plain offset t
  · rcases t with _ | ⟨c, t⟩
    · exact List.forall_mem_nil _
    · rw [bodyEnd]
      split <;> exact List.forall_mem_nil _
  · intro plain offset seg rest s hseg ih d hd
    rcases List.mem_append.mp hd with hd | hd
    · rcases seg with text | z | opener | opener | c
      case unmatched =>
        obtain rfl := List.mem_singleton.mp hd
        exact DiagnosticCode.noConfusion
      case tooDeep =>
        obtain rfl := List.mem_singleton.mp hd
        exact DiagnosticCode.noConfusion
      all_goals cases hd
    · exact ih d hd

/-- A body that is scanned with a budget is scanned with a search, if there is any budget. -/
theorem exists_search (budget : Nat) :
    ∃ search : Option CloserSearch, (search.isSome = true → 0 < budget) ∧
      (∀ find ∈ search, CloserSearch.Sound find) ∧
      ∀ host offset t, scanBody budget host offset t = scanFrom search host 0 false offset t := by
  rcases budget with _ | budget
  · exact ⟨none, nofun, nofun, scanBody_zero⟩
  · refine ⟨some (findCloser budget), fun _ => Nat.succ_pos _, ?_, scanBody_succ budget⟩
    rintro find ⟨⟩
    exact sound_findCloser budget

/-- With any budget, no scan of a body reports that a literal is unterminated. -/
theorem code_of_mem_scanBody (hforms : ∀ form ∈ host.forms, form.opener ≠ [])
    (budget offset : Nat) (t : Text) :
    ∀ d ∈ (scanBody budget host offset t).diagnostics, d.code ≠ .unterminatedRegion := by
  obtain ⟨search, -, hsound, hscan⟩ := exists_search budget
  rw [hscan]
  exact code_of_mem_scanFrom hforms hsound false offset t

/-! ### Literals -/

/-- **A literal at the start of a text holds its zones in a content**: it reads an opening part,
the content and a closing part; its zones are in the content and declared by some forms. Without
budget there are none. -/
structure Found.Holds (forms : List Interpolation) (budget offset : Nat)
    (t opening content closing : Text) (found : Found) : Prop where
  reads : opening ++ content ++ closing <+: t
  length_eq : found.length = (opening ++ content ++ closing).length
  zones : ZonesIn (offset + opening.width) content found.zones
  declared : ∀ z ∈ found.zones, 0 < budget ∧ Declared forms offset t z

/-- A literal at the start of a text fits it: it does not reach beyond the text, and its
zones are in what it reads and of some forms. Without budget there are none. -/
structure Found.Fits (forms : List Interpolation) (budget offset : Nat) (t : Text)
    (found : Found) : Prop where
  length_le : found.length ≤ t.length
  zones : ZonesIn offset (t.take found.length) found.zones
  forms : ∀ z ∈ found.zones, 0 < budget ∧ ∃ form ∈ forms, z.grammar = form.grammar

/-- What a match without zones has to show. -/
theorem Found.Fits.of_length_le {forms : List Interpolation} {n : Nat} {ds : List Diagnostic}
    (h : n ≤ t.length) : Found.Fits forms budget offset t ⟨n, [], ds⟩ :=
  ⟨h, trivial, by simp⟩

/-- What a literal reads. -/
theorem Found.Holds.take_eq {forms : List Interpolation} {opening content closing : Text}
    {found : Found} (h : found.Holds forms budget offset t opening content closing) :
    t.take found.length = opening ++ content ++ closing := by
  obtain ⟨rest, rfl⟩ := h.reads
  rw [h.length_eq, List.take_left]

/-- What holds its zones in a content fits. -/
theorem Found.Holds.fits {forms : List Interpolation} {opening content closing : Text}
    {found : Found} (h : found.Holds forms budget offset t opening content closing) :
    found.Fits forms budget offset t := by
  refine ⟨h.length_eq ▸ h.reads.length_le, ?_, fun z hz => ?_⟩
  · rw [h.take_eq]
    exact (h.zones.prepend opening).append closing
  · obtain ⟨hpos, _, _, -, -, form, hform, hfits⟩ := h.declared z hz
    exact ⟨hpos, form, hform, hfits.grammar_eq⟩

/-- How a literal between delimiters ends, in what it reads and in what it reports: with its
closing delimiter, or without any, and then this is reported. -/
inductive Ends (spec : Delimited) (span : Span) (reports : List Diagnostic) :
    (closing : Text) → Prop
  | closed (unreported : unterminatedDiagnostic spec span ∉ reports) :
      Ends spec span reports spec.closer
  | open (reported : unterminatedDiagnostic spec span ∈ reports) : Ends spec span reports []

/-- **A literal between delimiters holds its zones** between them. -/
theorem exists_content_of_matchDelimited? {spec : Delimited} {literals : List Delimited}
    {found : Found} (hforms : ∀ form ∈ spec.interpolations, form.opener ≠ [])
    (h : matchDelimited? spec literals budget offset t = some found) :
    ∃ content closing,
      found.Holds spec.interpolations budget offset t spec.opener content closing ∧
      Ends spec ⟨offset, offset + Text.width (t.take found.length)⟩ found.diagnostics closing := by
  rw [matchDelimited?] at h
  split at h
  next hopen =>
    obtain ⟨rest, rfl⟩ := List.isPrefixOf_iff_prefix.mp hopen
    rw [List.drop_left] at h
    obtain ⟨search, hsearched, hsound, hscan⟩ := exists_search budget
    dsimp only at h
    rw [hscan] at h
    have hhost : ∀ form ∈ (Host.ofDelimited spec offset literals).forms, form.opener ≠ [] := hforms
    obtain ⟨content, hreads, hlength, hzones, hdeclared⟩ :=
      exists_content_scanFrom hhost hsound false (offset + spec.opener.width) rest
    have hcode := code_of_mem_scanFrom hhost hsound false (offset + spec.opener.width) rest
    generalize scanFrom search (Host.ofDelimited spec offset literals) 0 false
      (offset + spec.opener.width) rest = scan at h hreads hlength hzones hdeclared hcode
    cases h
    refine ⟨content, scan.closing (Host.ofDelimited spec offset literals),
      ⟨?_, ?_, hzones, fun z hz => ?_⟩, ?_⟩
    · rw [List.append_assoc]
      exact (List.prefix_append_right_inj _).mpr hreads
    · rw [List.append_assoc, List.length_append, ← hlength]
    · obtain ⟨hsome, hz⟩ := hdeclared z hz
      exact ⟨hsearched hsome, hz.prepend _⟩
    · rw [BodyScan.closing]
      rcases hclosed : scan.closed with _ | _
      · refine .open ?_
        simp
      · refine .closed fun hmem => ?_
        rw [if_pos rfl, List.append_nil] at hmem
        exact hcode _ hmem rfl
  next => cases h

/-- **A delimited literal fits the text.** -/
theorem fits_of_matchDelimited? {spec : Delimited} {literals : List Delimited} {found : Found}
    (hforms : ∀ form ∈ spec.interpolations, form.opener ≠ [])
    (h : matchDelimited? spec literals budget offset t = some found) :
    found.Fits spec.interpolations budget offset t := by
  obtain ⟨content, closing, hholds, -⟩ := exists_content_of_matchDelimited? hforms h
  exact hholds.fits

end Literal

end Polylex
