import Polylex.Proofs.Literal.Zones

/-!
# How a body divides into segments

The scan of a body goes from segment to segment, and `Polylex.Literal.firstSegment?` computes
the next one as the loop does. Here the segments are described by the text alone. At every place
of a body the closing delimiter comes first, then the escape character, then the line feed, then
the forms of embedded expression in their order, and only then the single character; so a
segment of one kind also says that nothing of the kinds before it stands there
(`Polylex.Literal.Segment.Reads`). An opening delimiter that is unmatched takes the forms away
from all places behind it, which is the one thing that a segment leaves to the next.

A body *divides* into segments up to some text behind it (`Polylex.Literal.Divides`), and every
scan of a body follows such a division: its zones are the zones of the segments, it reports what
the segments report at their offsets, and it stops where the body ends
(`Polylex.Literal.exists_follows_scanBody`). For a literal between delimiters this gives its
extent and all its reports (`Polylex.Literal.matchDelimited?_by_segments`).
-/

namespace Polylex

/-! ### What opens at a place -/

/-- **A form opens at the start of a text**: its opening delimiter stands there, and behind a
sigil a label begins. -/
def Interpolation.Opens (t : Text) : Interpolation → Prop
  | .braced opener _ _ => opener <+: t
  | .sigil mark _ => ∃ c rest, t = mark :: c :: rest ∧ beginsLabel c = true

/-- **The form that opens at the start of a text** is the first of those that do. -/
def Interpolation.OpensFirst (t : Text) (forms : List Interpolation) (form : Interpolation) :
    Prop :=
  ∃ before after, forms = before ++ form :: after ∧ form.Opens t ∧ ∀ f ∈ before, ¬f.Opens t

namespace Literal

variable {search : Option CloserSearch} {host : Host} {plain : Bool} {offset budget : Nat}
variable {t behind rest : Text} {form : Interpolation} {forms : List Interpolation} {c : Char}
variable {seg : Segment} {segs : List Segment}

theorem labelLength_ne_zero_iff :
    labelLength t ≠ 0 ↔ ∃ c rest, t = c :: rest ∧ beginsLabel c = true := by
  rcases t with _ | ⟨c, t⟩
  · exact iff_of_false (fun h => h rfl) fun ⟨_, _, hnil, _⟩ => nomatch hnil
  rw [labelLength]
  split
  next hbegins => exact iff_of_true (by omega) ⟨c, t, rfl, hbegins⟩
  next hbegins =>
    refine iff_of_false (fun h => h rfl) ?_
    rintro ⟨c', t', hcons, hbegins'⟩
    cases hcons
    exact hbegins hbegins'

theorem opens_sigil_iff {mark : Char} {g : Option String} :
    (Interpolation.sigil mark g).Opens (c :: t) ↔ c = mark ∧ labelLength t ≠ 0 := by
  rw [labelLength_ne_zero_iff]
  constructor
  · rintro ⟨d, rest, hcons, hbegins⟩
    cases hcons
    exact ⟨rfl, d, rest, rfl, hbegins⟩
  · rintro ⟨rfl, d, rest, rfl, hbegins⟩
    exact ⟨d, rest, rfl, hbegins⟩

/-- A form that does not open is passed over. -/
theorem opening?_cons_of_not_opens (h : ¬form.Opens (c :: t)) :
    opening? search host offset (c :: t) (form :: forms) =
      opening? search host offset (c :: t) forms := by
  rw [opening?.eq_def]
  rcases form with ⟨opener, closer, g⟩ | ⟨mark, g⟩
  · exact if_neg fun hopen => h (List.isPrefixOf_iff_prefix.mp hopen)
  · rw [opens_sigil_iff] at h
    exact if_neg (by simpa using h)

/-- A form that opens decides what the opening delimiter leads to, and no form behind it is
tried. -/
theorem exists_opening?_cons_of_opens (search : Option CloserSearch) (host : Host) (offset : Nat)
    (h : form.Opens (c :: t)) :
    ∃ o, ∀ forms, opening? search host offset (c :: t) (form :: forms) = some o := by
  rcases form with ⟨opener, closer, g⟩ | ⟨mark, g⟩
  · have hopen : opener.isPrefixOf (c :: t) = true := List.isPrefixOf_iff_prefix.mpr h
    rcases search with _ | find
    · exact ⟨_, fun forms => by rw [opening?, if_pos hopen]⟩
    · rcases hfound : find closer (if g.isNone then host.literals else []) host
        (offset + opener.width) ((c :: t).drop opener.length) with _ | n
      · exact ⟨_, fun forms => by rw [opening?, if_pos hopen]; dsimp only; rw [hfound]⟩
      · exact ⟨_, fun forms => by rw [opening?, if_pos hopen]; dsimp only; rw [hfound]⟩
  · have hmark : (c = mark && labelLength t ≠ 0) = true := by
      simpa using opens_sigil_iff.mp h
    rcases search with _ | find
    · exact ⟨_, fun forms => by rw [opening?, if_pos hmark]⟩
    · exact ⟨_, fun forms => by rw [opening?, if_pos hmark]⟩

/-- Nothing opens exactly if no form does. -/
theorem opening?_eq_none_iff :
    opening? search host offset (c :: t) forms = none ↔ ∀ form ∈ forms, ¬form.Opens (c :: t) := by
  induction forms with
  | nil => exact iff_of_true rfl (List.forall_mem_nil _)
  | cons form forms ih =>
    rw [List.forall_mem_cons]
    by_cases hopens : form.Opens (c :: t)
    · obtain ⟨o, ho⟩ := exists_opening?_cons_of_opens search host offset hopens
      rw [ho]
      exact iff_of_false nofun fun h => h.1 hopens
    · rw [opening?_cons_of_not_opens hopens, ih]
      exact (and_iff_right hopens).symm

/-- **What opens is decided by the first form that opens**, as if it were the only one. -/
theorem exists_opensFirst {o : Opening}
    (h : opening? search host offset (c :: t) forms = some o) :
    ∃ form, form.OpensFirst (c :: t) forms ∧
      opening? search host offset (c :: t) [form] = some o := by
  induction forms with
  | nil => cases h
  | cons form forms ih =>
    by_cases hopens : form.Opens (c :: t)
    · obtain ⟨o', ho'⟩ := exists_opening?_cons_of_opens search host offset hopens
      rw [ho'] at h
      cases h
      exact ⟨form, ⟨[], forms, rfl, hopens, List.forall_mem_nil _⟩, ho' []⟩
    · rw [opening?_cons_of_not_opens hopens] at h
      obtain ⟨first, ⟨before, after, rfl, hfirst, hbefore⟩, ho⟩ := ih h
      exact ⟨first, ⟨form :: before, after, rfl, hfirst,
        List.forall_mem_cons.mpr ⟨hopens, hbefore⟩⟩, ho⟩

/-! ### Segments of the text -/

/-- A text that begins neither with the escape character of a literal nor with a line feed that
the literal cannot hold. -/
structure Host.Bare (h : Host) (t : Text) : Prop where
  escape : ∀ c ∈ t.head?, h.escape ≠ some c
  feed : h.multiline = false → t.head? ≠ some '\n'

/-- **What a segment of a body is**, at an offset and in front of the text behind it. Forms are
looked for as long as no opening delimiter was unmatched, and zones are made as long as there is
budget. -/
inductive Segment.Reads (h : Host) (budget : Nat) (plain : Bool) (offset : Nat) :
    Segment → (behind : Text) → Prop
  | escaped {e c : Char} {behind : Text} (escape : h.escape = some e) :
      Reads h budget plain offset (.escaped [e, c]) behind
  /-- The escape character is the last of the text. -/
  | escapedEnd {e : Char} (escape : h.escape = some e) :
      Reads h budget plain offset (.escaped [e]) []
  | zone {z : Zone} {form : Interpolation} {behind : Text} (bare : h.Bare (z.text ++ behind))
      (looked : plain = false) (room : 0 < budget)
      (opens : form.OpensFirst (z.text ++ behind) h.forms) (start : z.start = offset)
      (fits : FitsForm z behind form) : Reads h budget plain offset (.zone z) behind
  | unmatched {form : Interpolation} {behind : Text} (bare : h.Bare (form.opener ++ behind))
      (looked : plain = false) (room : 0 < budget)
      (opens : form.OpensFirst (form.opener ++ behind) h.forms) :
      Reads h budget plain offset (.unmatched form.opener) behind
  | tooDeep {form : Interpolation} {behind : Text} (bare : h.Bare (form.opener ++ behind))
      (looked : plain = false) (spent : budget = 0)
      (opens : form.OpensFirst (form.opener ++ behind) h.forms) :
      Reads h budget plain offset (.tooDeep form.opener) behind
  | plain {c : Char} {behind : Text} (bare : h.Bare (c :: behind))
      (shut : plain = true ∨ ∀ form ∈ h.forms, ¬form.Opens (c :: behind)) :
      Reads h budget plain offset (.plain c) behind

/-- **A body divides into segments** from an offset on, up to some text behind it. The closing
delimiter does not stand where a segment starts. -/
inductive Divides (h : Host) (budget : Nat) :
    (plain : Bool) → (offset : Nat) → Text → List Segment → (rest : Text) → Prop
  | done (plain : Bool) (offset : Nat) (rest : Text) : Divides h budget plain offset rest [] rest
  | segment {plain : Bool} {offset : Nat} {seg : Segment} {behind rest : Text}
      {segs : List Segment} (unclosed : ∀ closer ∈ h.closer, ¬closer <+: seg.text ++ behind)
      (reads : seg.Reads h budget plain offset behind)
      (later : Divides h budget (seg.plainAfter plain) (offset + seg.text.width) behind segs
        rest) :
      Divides h budget plain offset (seg.text ++ behind) (seg :: segs) rest

/-- **Where a body ends**, and with which closing delimiter if there is one: at the closing
delimiter, at the end of the text, or at a line feed that the literal cannot hold. -/
inductive Host.Ends (h : Host) : (rest : Text) → (closing : Option Text) → Prop
  | closed {closer after : Text} (closer_eq : h.closer = some closer) :
      Ends h (closer ++ after) (some closer)
  | atEnd : Ends h [] none
  | atFeed {after : Text} (line : h.multiline = false)
      (unclosed : ∀ closer ∈ h.closer, ¬closer <+: '\n' :: after) : Ends h ('\n' :: after) none

/-- What segments report, the first of them at an offset. -/
def Segment.reports (h : Host) : (offset : Nat) → List Segment → List Diagnostic
  | _, [] => []
  | offset, seg :: segs => seg.diagnostics h offset ++ reports h (offset + seg.text.width) segs

/-! ### The scan follows a division -/

theorem closingLength?_eq_none_iff :
    host.closingLength? t = none ↔ ∀ closer ∈ host.closer, ¬closer <+: t := by
  rw [Host.closingLength?]
  rcases host.closer with _ | closer
  · simp
  · simp [List.isPrefixOf_iff_prefix]

/-- **The segment that the scan finds is one of the text.** -/
theorem reads_of_firstSegment? (hsearch : ∀ find ∈ search, CloserSearch.Sound find)
    (hbudget : search.isSome = true ↔ 0 < budget)
    (h : firstSegment? search host plain offset (seg.text ++ behind) = some seg) :
    (∀ closer ∈ host.closer, ¬closer <+: seg.text ++ behind) ∧
      seg.Reads host budget plain offset behind := by
  generalize htext : seg.text ++ behind = text at h
  rcases text with _ | ⟨c, t⟩
  · cases h
  rw [firstSegment?] at h
  split at h
  · cases h
  next hclose =>
  refine ⟨closingLength?_eq_none_iff.mp (by simpa using hclose), ?_⟩
  split at h
  next hescape =>
    cases h
    obtain rfl : behind = t.drop 1 := by
      have hcut : (c :: t.take 1) ++ behind = (c :: t.take 1) ++ t.drop 1 :=
        htext.trans (congrArg (c :: ·) (List.take_append_drop 1 t).symm)
      exact List.append_cancel_left hcut
    rcases t with _ | ⟨d, t⟩
    · exact .escapedEnd hescape
    · exact .escaped hescape
  next hescape =>
  split at h
  · cases h
  next hfeed =>
  have hbare : host.Bare (c :: t) := by
    refine ⟨fun d hd => ?_, fun hline hd => ?_⟩
    · cases hd
      exact hescape
    · cases hd
      simp [hline] at hfeed
  split at h
  next hnone =>
    cases h
    obtain rfl : behind = t := (List.cons.inj htext).2
    refine .plain hbare ?_
    rcases plain with _ | _
    · exact Or.inr (opening?_eq_none_iff.mp hnone)
    · exact Or.inl rfl
  next o ho =>
    cases h
    obtain ⟨hplain, ho⟩ : plain = false ∧
        opening? search host offset (c :: t) host.forms = some o := by
      rcases plain with _ | _
      · exact ⟨rfl, ho⟩
      · cases ho
    obtain ⟨form, hfirst, hform⟩ := exists_opensFirst ho
    have hstands : o.Stands search offset (c :: t) [form] := stands_of_opening? hsearch hform
    rw [← htext] at hbare hfirst hstands
    rcases o with z | opener | opener
    · obtain ⟨hsome, hstart, rest, hrest, f, hf, hfits⟩ := hstands
      obtain rfl := List.mem_singleton.mp hf
      obtain rfl : behind = rest := List.append_cancel_left hrest
      exact .zone hbare hplain (hbudget.mp hsome) hfirst hstart hfits
    · obtain ⟨hsome, -, f, hf, rfl⟩ := hstands
      obtain rfl := List.mem_singleton.mp hf
      exact .unmatched hbare hplain (hbudget.mp hsome) hfirst
    · obtain ⟨rfl, -, f, hf, rfl⟩ := hstands
      obtain rfl := List.mem_singleton.mp hf
      have hspent : budget = 0 := by simpa using hbudget
      exact .tooDeep hbare hplain hspent hfirst

/-- A division cuts the body into its segments and what stands behind them. -/
theorem Divides.text_eq (h : Divides host budget plain offset t segs rest) :
    t = segs.flatMap Segment.text ++ rest := by
  induction h with
  | done plain offset rest => rfl
  | segment unclosed reads later ih => rw [List.flatMap_cons, List.append_assoc, ← ih]

/-- **A scan follows a division** of the body: its zones are those of the segments, it reports
what they report, and it ends where the body ends. -/
structure BodyScan.Follows (host : Host) (budget : Nat) (plain : Bool) (offset : Nat) (t : Text)
    (segs : List Segment) (rest : Text) (closing : Option Text) (s : BodyScan) : Prop where
  divides : Divides host budget plain offset t segs rest
  ends : host.Ends rest closing
  length_eq : s.length = (segs.flatMap Segment.text ++ closing.getD []).length
  closed_eq : s.closed = closing.isSome
  zones_eq : s.zones = segs.flatMap Segment.zones
  diagnostics_eq : s.diagnostics = Segment.reports host offset segs

/-- Where there is no segment the body ends. -/
theorem exists_follows_bodyEnd (budget : Nat)
    (h : firstSegment? search host plain offset t = none) :
    ∃ closing, (bodyEnd host t).Follows host budget plain offset t [] t closing := by
  rcases t with _ | ⟨c, t⟩
  · exact ⟨none, .done .., .atEnd, rfl, rfl, rfl, rfl⟩
  rw [bodyEnd]
  rw [firstSegment?] at h
  rcases hclose : host.closingLength? (c :: t) with _ | n
  · rw [hclose, if_neg (by simp)] at h
    split at h
    · cases h
    split at h
    next hfeed =>
      obtain ⟨rfl, hline⟩ : c = '\n' ∧ host.multiline = false := by simpa using hfeed
      exact ⟨none, .done .., .atFeed hline (closingLength?_eq_none_iff.mp hclose), rfl, rfl, rfl,
        rfl⟩
    next => split at h <;> cases h
  · obtain ⟨closer, hcloser, ⟨after, hafter⟩, rfl⟩ := exists_closer_of_closingLength? hclose
    rw [← hafter]
    exact ⟨some closer, .done .., .closed hcloser, rfl, rfl, rfl, rfl⟩

/-- **Every scan of a body follows a division of it.** -/
theorem exists_follows_scanFrom (hforms : ∀ form ∈ host.forms, form.opener ≠ [])
    (hsearch : ∀ find ∈ search, CloserSearch.Sound find)
    (hbudget : search.isSome = true ↔ 0 < budget) (plain : Bool) (offset : Nat) (t : Text) :
    ∃ segs rest closing,
      (scanFrom search host 0 plain offset t).Follows host budget plain offset t segs rest
        closing := by
  refine scanFrom_induction
    (motive := fun plain offset t s =>
      ∃ segs rest closing, s.Follows host budget plain offset t segs rest closing)
    hforms hsearch ?_ ?_ plain offset t
  · intro plain offset t hstop
    obtain ⟨closing, hfollows⟩ := exists_follows_bodyEnd budget hstop
    exact ⟨[], t, closing, hfollows⟩
  · rintro plain offset seg behind s hseg
      ⟨segs, rest, closing, hdivides, hends, hlength, hclosed, hzones, hreports⟩
    obtain ⟨hunclosed, hreads⟩ := reads_of_firstSegment? hsearch hbudget hseg
    refine ⟨seg :: segs, rest, closing, .segment hunclosed hreads hdivides, hends, ?_, hclosed, ?_,
      ?_⟩
    · rw [BodyScan.after, hlength, List.flatMap_cons]
      simp only [List.length_append]
      omega
    · rw [BodyScan.after, hzones, List.flatMap_cons]
    · rw [BodyScan.after, hreports, Segment.reports]

/-- The scan of a body follows a division of it, with zones as long as there is budget. -/
theorem exists_follows_scanBody (hforms : ∀ form ∈ host.forms, form.opener ≠ [])
    (budget offset : Nat) (t : Text) :
    ∃ segs rest closing,
      (scanBody budget host offset t).Follows host budget false offset t segs rest closing := by
  rcases budget with _ | budget
  · rw [scanBody_zero]
    exact exists_follows_scanFrom hforms (by simp) (by simp) false offset t
  · rw [scanBody_succ]
    refine exists_follows_scanFrom hforms ?_ (by simp) false offset t
    rintro find ⟨⟩
    exact sound_findCloser budget

/-! ### Literals between delimiters -/

/-- **How far a literal between delimiters reaches** when it has read some text behind its
opening delimiter and some other text stands behind that. It ends with its closing delimiter, and
there is nothing to report about its end; or it ends at the end of the text, or at a line feed if
it cannot hold one, and this is reported once, over the whole literal. -/
inductive Reaches (spec : Delimited) (offset : Nat) (read : Text) (found : Found) :
    (rest : Text) → Prop
  | closed {after : Text} (length_eq : found.length = (spec.opener ++ read ++ spec.closer).length)
      (unreported : ∀ d ∈ found.diagnostics, d.code ≠ .unterminatedRegion) :
      Reaches spec offset read found (spec.closer ++ after)
  | unclosed {rest : Text}
      (stop : rest = [] ∨
        spec.multiline = false ∧ rest.head? = some '\n' ∧ ¬spec.closer <+: rest)
      (length_eq : found.length = (spec.opener ++ read).length)
      (reported : found.diagnostics.filter (·.code = .unterminatedRegion) =
        [unterminatedDiagnostic spec ⟨offset, offset + Text.width (spec.opener ++ read)⟩]) :
      Reaches spec offset read found rest

/-- **A literal between delimiters is read by segments.** Where its opening delimiter stands it
is found, with any literals around it and any budget. What it reads behind the delimiter divides
into segments; its zones are the zones among them, and besides its end it reports what they
report. -/
theorem matchDelimited?_by_segments {spec : Delimited}
    (hforms : ∀ form ∈ spec.interpolations, form.opener ≠ []) (literals : List Delimited)
    (budget offset : Nat) (body : Text) :
    ∃ found segs rest,
      matchDelimited? spec literals budget offset (spec.opener ++ body) = some found ∧
      body = segs.flatMap Segment.text ++ rest ∧
      Divides (Host.ofDelimited spec offset literals) budget false (offset + spec.opener.width) body
        segs rest ∧
      Reaches spec offset (segs.flatMap Segment.text) found rest ∧
      found.zones = segs.flatMap Segment.zones ∧
      found.diagnostics.filter (·.code ≠ .unterminatedRegion) =
        Segment.reports (Host.ofDelimited spec offset literals) (offset + spec.opener.width)
          segs := by
  have hopen : spec.opener.isPrefixOf (spec.opener ++ body) = true :=
    List.isPrefixOf_iff_prefix.mpr (List.prefix_append _ _)
  have hhost : ∀ form ∈ (Host.ofDelimited spec offset literals).forms, form.opener ≠ [] := hforms
  rw [matchDelimited?, if_pos hopen, List.drop_left]
  dsimp only
  obtain ⟨segs, rest, closing, hdivides, hends, hlength, hclosed, hzones, hreports⟩ :=
    exists_follows_scanBody hhost budget (offset + spec.opener.width) body
  have hcodes := code_of_mem_scanBody hhost budget (offset + spec.opener.width) body
  generalize scanBody budget (Host.ofDelimited spec offset literals)
    (offset + spec.opener.width) body = scan at hlength hclosed hzones hreports hcodes
  have hall : scan.diagnostics.filter (·.code ≠ .unterminatedRegion) = scan.diagnostics :=
    List.filter_eq_self.mpr fun d hd => decide_eq_true (hcodes d hd)
  have hnone : scan.diagnostics.filter (·.code = .unterminatedRegion) = [] :=
    List.filter_eq_nil_iff.mpr fun d hd => by simpa using hcodes d hd
  have hlength : spec.opener.length + scan.length =
      (spec.opener ++ segs.flatMap Segment.text ++ closing.getD []).length := by
    rw [hlength, List.append_assoc, ← List.length_append]
  rcases closing with _ | closer
  · have htake : (spec.opener ++ body).take (spec.opener.length + scan.length) =
        spec.opener ++ segs.flatMap Segment.text := by
      rw [hlength, hdivides.text_eq, ← List.append_assoc, Option.getD_none, List.append_nil,
        List.take_left]
    rw [Option.getD_none, List.append_nil] at hlength
    rw [hclosed, Option.isSome_none, if_neg Bool.false_ne_true, htake]
    refine ⟨_, segs, rest, rfl, hdivides.text_eq, hdivides, .unclosed ?_ hlength ?_, hzones, ?_⟩
    · rcases hends with _ | _ | ⟨hline, hunclosed⟩
      · exact Or.inl rfl
      · exact Or.inr ⟨hline, rfl, hunclosed _ rfl⟩
    · rw [List.filter_append, hnone, List.nil_append]
      rfl
    · rw [List.filter_append, hall, hreports]
      exact List.append_nil _
  · rw [hclosed, Option.isSome_some, if_pos rfl, List.append_nil]
    obtain ⟨hcloser⟩ := hends
    obtain rfl := Option.some.inj hcloser
    exact ⟨_, segs, _, rfl, hdivides.text_eq, hdivides, .closed hlength hcodes, hzones,
      hall.trans hreports⟩

/-- The case of a literal that ends with its line, behind an escaped quote, an expression that
holds a closing delimiter in a literal of its own, and an opening delimiter without its closing
one. -/
theorem matchDelimited?_by_segments_unclosed :
    let spec : Delimited :=
      ⟨['"'], ['"'], some '\\', false, [.braced ['$', '\x7b'] ['\x7d'] none]⟩
    let body : Text := ['\\', '"', '$', '\x7b', '"', '\x7d', '"', '\x7d', '$', '\x7b', '\n', 'a']
    (∀ form ∈ spec.interpolations, form.opener ≠ []) ∧
    ((matchDelimited? spec [spec] 1 0 (spec.opener ++ body)).map fun found =>
        (found.length, found.zones.map (·.span), found.diagnostics.map (·.code))) =
      some (11, [⟨3, 9⟩], [.unmatchedInterpolationCloser, .unterminatedRegion]) ∧
    ∃ found segs rest, matchDelimited? spec [spec] 1 0 (spec.opener ++ body) = some found ∧
      body = segs.flatMap Segment.text ++ rest ∧
      Divides (Host.ofDelimited spec 0 [spec]) 1 false 1 body segs rest ∧
      Reaches spec 0 (segs.flatMap Segment.text) found rest := by
  intro spec body
  have hforms : ∀ form ∈ spec.interpolations, form.opener ≠ [] := by decide
  obtain ⟨found, segs, rest, hfound, hbody, hdivides, hreaches, -⟩ :=
    matchDelimited?_by_segments hforms [spec] 1 0 body
  exact ⟨hforms, by decide, found, segs, rest, hfound, hbody, hdivides, hreaches⟩

end Literal

end Polylex
