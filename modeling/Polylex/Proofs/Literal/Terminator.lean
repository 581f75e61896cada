import Mathlib.Data.List.Basic
import Mathlib.Data.List.TakeWhile
import Polylex.Proofs.Literal.Heredoc

/-!
# Where a heredoc begins and ends

A heredoc begins with an introducer: a fixed text, a flag if one stands there, and a label that
may stand in quotes. All of this is described by what the text is
(`Polylex.Heredoc.Begins`), and a heredoc is found exactly where a text begins in this way.

It ends on a line of its own. The lines behind the introducer are gone through for one that holds
only the label (`Polylex.Heredoc.HoldsOnly`): carriage returns may stand behind it, and white
space in front of it if there was a flag. The program strips a line at both ends and compares
what is left with the label; as no label begins with white space or ends with a carriage return,
that comes to the same (`Polylex.Heredoc.terminatorPart_eq_iff`). The heredoc ends behind the label
on the first such line, and if there is none, it ends with the text
(`Polylex.Heredoc.matchHeredoc?_by_lines`). No zone and nothing inside a zone has a say in this.
-/

namespace Polylex

open Literal

/-! ### Characters of labels -/

namespace Unicode.RangeTable

/-- The code points of a table. -/
def points (table : RangeTable) : List Nat :=
  table.flatMap fun range => List.range' range.1 (range.2 - range.1 + 1)

theorem mem_points_of_covers {table : RangeTable} {n : Nat} (h : table.covers n = true) :
    n ∈ table.points := by
  induction table with
  | nil => cases h
  | cons range rest ih =>
    rw [covers, Bool.and_eq_true, Bool.or_eq_true, decide_eq_true_iff, decide_eq_true_iff] at h
    rw [points, List.flatMap_cons, List.mem_append, List.mem_range'_1]
    exact h.2.imp (fun hle => by omega) ih

end Unicode.RangeTable

/-- No label begins with white space. -/
theorem beginsLabel_of_isBlank {c : Char} (h : Unicode.isBlank c = true) :
    beginsLabel c = false := by
  have hall : ∀ n ∈ Unicode.blanks.points, beginsLabel (Char.ofNat n) = false := by
    decide +kernel
  have hc := hall c.toNat (Unicode.RangeTable.mem_points_of_covers h)
  rwa [Char.ofNat_toNat] at hc

/-- No label begins with a quote. -/
theorem beginsLabel_of_isLabelQuote {c : Char} (h : isLabelQuote c = true) :
    beginsLabel c = false := by
  have hquote : c = '\'' ∨ c = '"' ∨ c = '\x60' := by
    simpa [isLabelQuote, or_assoc] using h
  rcases hquote with rfl | rfl | rfl <;> rfl

namespace Literal

variable {label rest : Text}

theorem IsLabel.append_ne_nil (s : Text) (h : IsLabel label rest) : s ++ label ≠ [] :=
  List.append_ne_nil_of_right_ne_nil s (isLabel_iff.mp h).1

theorem IsLabel.beginsLabel_of_mem_head? {c : Char} (h : IsLabel label rest)
    (hc : c ∈ label.head?) : beginsLabel c = true := by
  obtain ⟨d, body, rfl, hd, -⟩ := h
  exact Option.some.inj hc ▸ hd

end Literal

/-! ### Lines -/

/-- A text without a line feed is one line. -/
theorem Text.lines_of_no_feed {t : Text} (h : '\n' ∉ t) : lines t = [t] := by
  induction t with
  | nil => rfl
  | cons c t ih =>
    rw [List.mem_cons, not_or] at h
    rw [lines, if_neg (Ne.symm h.1), ih h.2]

/-- The first line of a text goes up to its first line feed. -/
theorem Text.lines_append_feed {line : Text} (rest : Text) (h : '\n' ∉ line) :
    lines (line ++ '\n' :: rest) = line :: lines rest := by
  induction line with
  | nil => rw [List.nil_append, lines, if_pos rfl]
  | cons c line ih =>
    rw [List.mem_cons, not_or] at h
    rw [List.cons_append, lines, if_neg (Ne.symm h.1), ih h.2]

namespace Heredoc

variable {spec : Heredoc} {t label rest line indent : Text} {flag quote : Option Char}
variable {indented : Bool} {offset budget : Nat} {literals : List Delimited}

/-! ### The introducer -/

/-- The text that introduces a heredoc: a fixed text, a flag or none, and a label in quotes or
without. -/
def introducer (spec : Heredoc) (flag quote : Option Char) (label : Text) : Text :=
  spec.intro ++ flag.toList ++ quote.toList ++ label ++ quote.toList

/-- **How a text begins with a heredoc**: with its introducer, in front of some rest. A flag is
taken whenever one stands there, and the label is a whole one. -/
structure Begins (spec : Heredoc) (t : Text) (flag quote : Option Char) (label rest : Text) :
    Prop where
  cut : t = spec.introducer flag quote label ++ rest
  flag_mem : ∀ c ∈ flag, c ∈ spec.flags
  flag_taken : flag = none → ∀ c ∈ (quote.toList ++ label).head?, c ∉ spec.flags
  quote_mem : ∀ q ∈ quote, q ∈ ['\'', '"', '\x60']
  label : IsLabel label (quote.toList ++ rest)

/-- The header that a program keeps of an introducer. -/
def headerOf (spec : Heredoc) (flag quote : Option Char) (label : Text) : HeredocHeader :=
  ⟨flag.isSome, quote, label, (spec.introducer flag quote label).length⟩

/-- A character is taken from a text if it is of some kind. -/
theorem head?_filter_eq_iff {kind : Char → Bool} {o : Option Char} :
    t.head?.filter kind = o ↔ ∃ r, t = o.toList ++ r ∧ (∀ c ∈ o, kind c = true) ∧
      (o = none → ∀ c ∈ r.head?, kind c = false) := by
  constructor
  · rintro rfl
    rcases t with _ | ⟨c, t⟩
    · exact ⟨[], rfl, nofun, fun _ => nofun⟩
    · rcases hc : kind c with _ | _
      · have hfilter : (c :: t).head?.filter kind = none := by simp [hc]
        rw [hfilter]
        exact ⟨c :: t, rfl, nofun, fun _ d hd => Option.some.inj hd ▸ hc⟩
      · have hfilter : (c :: t).head?.filter kind = some c := by simp [hc]
        rw [hfilter]
        exact ⟨t, rfl, fun d hd => Option.some.inj hd ▸ hc, nofun⟩
  · rintro ⟨r, rfl, hkind, hnone⟩
    rcases o with _ | c
    · rcases r with _ | ⟨c, r⟩
      · rfl
      · simp [hnone rfl c rfl]
    · simp [hkind c rfl]

theorem isLabelQuote_iff {q : Char} : isLabelQuote q = true ↔ q ∈ ['\'', '"', '\x60'] := by
  simp [isLabelQuote, or_assoc]

/-- Behind the flag and the quote that are taken, a label has to stand, and the quote again. -/
theorem header?_eq {r : Text}
    (hflag : (flag.toList ++ (quote.toList ++ r)).head?.filter spec.flags.contains = flag)
    (hquote : (quote.toList ++ r).head?.filter isLabelQuote = quote) :
    header? spec (spec.intro ++ (flag.toList ++ (quote.toList ++ r))) =
      if labelLength r ≠ 0 && quote.all fun q => (r.drop (labelLength r)).head? == some q then
        some (spec.headerOf flag quote (r.take (labelLength r)))
      else none := by
  have hintro : spec.intro.isPrefixOf (spec.intro ++ (flag.toList ++ (quote.toList ++ r))) = true :=
    List.isPrefixOf_iff_prefix.mpr (List.prefix_append _ _)
  have hindented : (flag.toList ++ (quote.toList ++ r)).head?.any spec.flags.contains =
      flag.isSome := by
    rw [← Option.isSome_filter, hflag]
  have hdrop : (if flag.isSome = true then (flag.toList ++ (quote.toList ++ r)).drop 1
      else flag.toList ++ (quote.toList ++ r)) = quote.toList ++ r := by
    rcases flag with _ | c <;> rfl
  have hlength : spec.intro.length + (if flag.isSome = true then 1 else 0) +
      2 * quote.toList.length + labelLength r =
        (spec.introducer flag quote (r.take (labelLength r))).length := by
    have htake : (r.take (labelLength r)).length = labelLength r :=
      List.length_take_of_le (labelLength_le r)
    have hone : (if flag.isSome = true then 1 else 0) = flag.toList.length := by
      rcases flag with _ | c <;> rfl
    simp only [introducer, List.length_append, htake, hone]
    omega
  rw [header?, if_pos hintro, List.drop_left]
  dsimp only
  rw [hindented, hdrop, hquote, List.drop_left, hlength]
  rfl

/-- The quote in front of a label stands behind it as well if the text goes on with it. -/
theorem all_head?_iff {r : Text} :
    (quote.all fun q => r.head? == some q) = true ↔ ∃ rest, r = quote.toList ++ rest := by
  rcases quote with _ | q
  · exact iff_of_true rfl ⟨r, rfl⟩
  · rcases r with _ | ⟨c, r⟩
    · exact iff_of_false nofun nofun
    · rw [Option.all_some, List.head?_cons, beq_iff_eq, Option.some.injEq]
      constructor
      · rintro rfl
        exact ⟨r, rfl⟩
      · rintro ⟨rest, hcons⟩
        exact (List.cons.inj hcons).1

/-- **The header of a text that begins with a heredoc.** -/
theorem header?_eq_some_iff {header : HeredocHeader} :
    header? spec t = some header ↔
      ∃ flag quote label rest, spec.Begins t flag quote label rest ∧
        header = spec.headerOf flag quote label := by
  constructor
  · intro h
    obtain ⟨s, rfl⟩ : spec.intro <+: t := by
      by_contra hintro
      rw [header?, if_neg fun hprefix => hintro (List.isPrefixOf_iff_prefix.mp hprefix)] at h
      cases h
    -- The flag and the quote are the ones that are taken from the text.
    generalize hflag : s.head?.filter spec.flags.contains = flag
    obtain ⟨s, rfl, hflags, hnone⟩ := head?_filter_eq_iff.mp hflag
    generalize hquote : s.head?.filter isLabelQuote = quote
    obtain ⟨r, rfl, hquotes, -⟩ := head?_filter_eq_iff.mp hquote
    rw [header?_eq hflag hquote] at h
    split at h
    next hlabel =>
      rw [Bool.and_eq_true, decide_eq_true_iff, all_head?_iff] at hlabel
      obtain ⟨hpos, rest, hrest⟩ := hlabel
      have hr := List.take_append_drop (labelLength r) r
      have htake : (r.take (labelLength r)).length = labelLength r :=
        List.length_take_of_le (labelLength_le r)
      rw [hrest] at hr
      generalize r.take (labelLength r) = label at h hr htake
      subst hr
      have hwhole : IsLabel label (quote.toList ++ rest) :=
        isLabel_iff.mpr ⟨by rintro rfl; exact hpos htake.symm, htake⟩
      refine ⟨flag, quote, label, rest, ⟨?_, ?_, ?_, ?_, hwhole⟩, (Option.some.inj h).symm⟩
      · simp only [introducer, List.append_assoc]
      · exact fun c hc => List.contains_iff_mem.mp (hflags c hc)
      · intro hflag c hc hmem
        have hhead : c ∈ (quote.toList ++ (label ++ (quote.toList ++ rest))).head? := by
          rwa [← List.append_assoc, List.head?_append_of_ne_nil _ (hwhole.append_ne_nil _)]
        have hcontains := List.contains_iff_mem.mpr hmem
        rw [hnone hflag c hhead] at hcontains
        cases hcontains
      · exact fun q hq => isLabelQuote_iff.mp (hquotes q hq)
    next => cases h
  · rintro ⟨flag, quote, label, rest, ⟨rfl, hflags, hnone, hquotes, hlabel⟩, rfl⟩
    obtain ⟨hne, hlength⟩ := isLabel_iff.mp hlabel
    have hquote : (quote.toList ++ (label ++ (quote.toList ++ rest))).head?.filter isLabelQuote =
        quote := by
      refine head?_filter_eq_iff.mpr ⟨_, rfl, fun q hq => isLabelQuote_iff.mpr (hquotes q hq),
        fun _ c hc => ?_⟩
      rw [List.head?_append_of_ne_nil _ hne] at hc
      refine Bool.eq_false_iff.mpr fun hc' => ?_
      have hbegins := hlabel.beginsLabel_of_mem_head? hc
      rw [beginsLabel_of_isLabelQuote hc'] at hbegins
      cases hbegins
    have hflag : (flag.toList ++ (quote.toList ++ (label ++ (quote.toList ++ rest)))).head?.filter
        spec.flags.contains = flag := by
      refine head?_filter_eq_iff.mpr ⟨_, rfl, fun c hc => List.contains_iff_mem.mpr (hflags c hc),
        fun h c hc => ?_⟩
      rw [← List.append_assoc, List.head?_append_of_ne_nil _ (hlabel.append_ne_nil _)] at hc
      exact Bool.eq_false_iff.mpr fun hc' => hnone h c hc (List.contains_iff_mem.mp hc')
    have hheader := header?_eq hflag hquote
    rw [← hlength, List.take_left, List.drop_left, if_pos] at hheader
    · rw [introducer, List.append_assoc, List.append_assoc, List.append_assoc, List.append_assoc]
      exact hheader
    · rw [Bool.and_eq_true, decide_eq_true_iff, all_head?_iff]
      exact ⟨fun hzero => hne (List.length_eq_zero_iff.mp hzero), rest, rfl⟩

/-! ### The terminator -/

/-- What is dropped from a text stands in front of what is left, which does not go on with it. -/
theorem dropWhile_eq_iff {kind : Char → Bool} :
    t.dropWhile kind = rest ↔ ∃ dropped, t = dropped ++ rest ∧ (∀ c ∈ dropped, kind c = true) ∧
      ∀ c ∈ rest.head?, kind c = false := by
  constructor
  · rintro rfl
    refine ⟨t.takeWhile kind, List.takeWhile_append_dropWhile.symm,
      fun c hc => List.mem_takeWhile_imp hc, fun c hc => ?_⟩
    have hnot := List.head?_dropWhile_not kind t
    rwa [Option.mem_def.mp hc] at hnot
  · rintro ⟨dropped, rfl, hdropped, hrest⟩
    rw [List.dropWhile_append_of_pos hdropped]
    rcases rest with _ | ⟨c, rest⟩
    · rfl
    · exact List.dropWhile_cons_of_neg (by rw [hrest c rfl]; exact Bool.false_ne_true)

theorem trimReturns_eq_iff {part : Text} :
    trimReturns line = part ↔ ∃ returns, line = part ++ returns ∧ (∀ c ∈ returns, c = '\r') ∧
      ∀ c ∈ part.getLast?, c ≠ '\r' := by
  rw [trimReturns, List.reverse_eq_iff, dropWhile_eq_iff]
  simp only [beq_iff_eq, beq_eq_false_iff_ne, List.head?_reverse]
  constructor
  · rintro ⟨dropped, hline, hdropped, hpart⟩
    refine ⟨dropped.reverse, ?_, fun c hc => hdropped c (List.mem_reverse.mp hc), hpart⟩
    rw [← List.reverse_reverse line, hline, List.reverse_append, List.reverse_reverse]
  · rintro ⟨returns, rfl, hreturns, hpart⟩
    exact ⟨returns.reverse, List.reverse_append, fun c hc => hreturns c (List.mem_reverse.mp hc),
      hpart⟩

/-- **A line that holds only a label**: there may be carriage returns behind it, and white space
in front of it where it may be indented. -/
structure HoldsOnly (label : Text) (indented : Bool) (indent line : Text) : Prop where
  cut : ∃ returns, line = indent ++ label ++ returns ∧ ∀ c ∈ returns, c = '\r'
  blank : ∀ c ∈ indent, Unicode.isBlank c = true
  allowed : indented = false → indent = []

/-- The carriage returns behind a label are all that is cut off a line that holds only the
label. -/
theorem holdsOnly_iff (h : IsLabel label rest) :
    HoldsOnly label indented indent line ↔ trimReturns line = indent ++ label ∧
      (∀ c ∈ indent, Unicode.isBlank c = true) ∧ (indented = false → indent = []) := by
  have hlast : ∀ c ∈ (indent ++ label).getLast?, c ≠ '\r' := by
    rintro c hc rfl
    rw [List.getLast?_append_of_ne_nil _ (isLabel_iff.mp h).1] at hc
    exact h.not_mem rfl rfl (List.mem_of_getLast? hc)
  rw [trimReturns_eq_iff]
  constructor
  · rintro ⟨⟨returns, hline, hreturns⟩, hblank, hallowed⟩
    exact ⟨⟨returns, hline, hreturns, hlast⟩, hblank, hallowed⟩
  · rintro ⟨⟨returns, hline, hreturns, -⟩, hblank, hallowed⟩
    exact ⟨⟨returns, hline, hreturns⟩, hblank, hallowed⟩

/-- **A line that is stripped of all but a label holds only the label.** -/
theorem terminatorPart_eq_iff (h : IsLabel label rest) :
    terminatorPart indented line = label ↔ ∃ indent, HoldsOnly label indented indent line := by
  simp only [holdsOnly_iff h]
  rw [terminatorPart]
  rcases indented with _ | _
  · rw [if_neg Bool.false_ne_true]
    constructor
    · exact fun hline => ⟨[], hline, List.forall_mem_nil _, fun _ => rfl⟩
    · rintro ⟨indent, hline, -, hindent⟩
      rw [hline, hindent rfl, List.nil_append]
  · rw [if_pos rfl, dropWhile_eq_iff]
    constructor
    · rintro ⟨indent, hline, hblank, -⟩
      exact ⟨indent, hline, hblank, fun h => Bool.noConfusion h⟩
    · rintro ⟨indent, hline, hblank, -⟩
      refine ⟨indent, hline, hblank, fun c hc => Bool.eq_false_iff.mpr fun hc' => ?_⟩
      have hbegins := h.beginsLabel_of_mem_head? hc
      rw [beginsLabel_of_isBlank hc'] at hbegins
      cases hbegins

theorem terminator?_eq_none_iff {before : Nat} {lines : List Text} :
    terminator? label indented before lines = none ↔
      ∀ line ∈ lines, terminatorPart indented line ≠ label := by
  induction lines generalizing before with
  | nil => exact iff_of_true rfl (List.forall_mem_nil _)
  | cons line lines ih =>
    rw [terminator?, List.forall_mem_cons]
    split
    next hlabel => exact iff_of_false (Option.some_ne_none _) fun h => h.1 hlabel
    next hlabel => rw [ih, and_iff_right hlabel]

/-! ### The extent of a heredoc -/

/-- **Where a heredoc ends**, and what is reported of its end, if some text stands behind its
introducer. The first line of that text is the rest of the line of the introducer. The heredoc
ends behind the label on the first line after it that holds only the label; or there is no such
line, and it ends with the text, which is reported once, over the whole heredoc. -/
inductive Ends (offset : Nat) (introducer label : Text) (indented : Bool) (rest : Text) :
    Nat → List Diagnostic → Prop
  | terminated {first line indent : Text} {between after : List Text}
      (lines : Text.lines rest = first :: between ++ line :: after)
      (skipped : ∀ l ∈ between, ¬∃ indent, HoldsOnly label indented indent l)
      (terminates : HoldsOnly label indented indent line)
      (reads : introducer ++ Text.unlines (first :: between) ++ indent ++ label <+:
        introducer ++ rest) :
      Ends offset introducer label indented rest
        (introducer ++ Text.unlines (first :: between) ++ indent ++ label).length []
  | unterminated
      (skipped : ∀ l ∈ (Text.lines rest).tail, ¬∃ indent, HoldsOnly label indented indent l) :
      Ends offset introducer label indented rest (introducer ++ rest).length
        [unterminatedHeredocDiagnostic label ⟨offset, offset + (introducer ++ rest).width⟩]

/-- **The frame of a text that begins with a heredoc** ends where the heredoc does. -/
theorem Begins.ends (h : spec.Begins t flag quote label rest) (offset : Nat) :
    ∃ f, spec.frame? offset t = some f ∧ f.header = spec.headerOf flag quote label ∧
      Ends offset (spec.introducer flag quote label) label flag.isSome rest f.length f.missing := by
  have hheader : header? spec t = some (spec.headerOf flag quote label) :=
    header?_eq_some_iff.mpr ⟨flag, quote, label, rest, h, rfl⟩
  have hdrop : t.drop (spec.headerOf flag quote label).length = rest := by
    rw [h.cut, headerOf, List.drop_left]
  rcases Text.firstFeed rest with ⟨hfeed, -⟩ | ⟨first, body, rfl, hfeed, -⟩
  · refine ⟨_, frame?_of_no_feed hheader (hdrop ▸ hfeed), rfl, ?_⟩
    rw [h.cut]
    refine .unterminated ?_
    rw [Text.lines_of_no_feed hfeed]
    exact List.forall_mem_nil _
  refine ⟨_, frame?_of_feed hheader hdrop hfeed, ?_⟩
  split
  next b through hfound =>
    obtain ⟨between, line, after, hbody, hline, hbetween, rfl, rfl⟩ := exists_of_terminator? hfound
    obtain ⟨indent, hholds⟩ := (terminatorPart_eq_iff h.label).mp hline
    have hreturns := ((holdsOnly_iff h.label).mp hholds).1
    have hlength : (spec.headerOf flag quote label).length + first.length + 1 +
        (0 + (Text.unlines between).length + (trimReturns line).length) =
          (spec.introducer flag quote label ++ Text.unlines (first :: between) ++ indent ++
            label).length := by
      rw [hreturns, headerOf, Text.unlines_cons]
      simp only [List.length_append, List.length_cons]
      omega
    refine ⟨rfl, ?_⟩
    dsimp only
    rw [hlength]
    have hlines : Text.lines (first ++ '\n' :: body) = (first :: between) ++ line :: after := by
      rw [Text.lines_append_feed body hfeed, hbody, List.cons_append]
    refine .terminated hlines ?_ hholds ?_
    · exact fun l hl hindent => hbetween l hl ((terminatorPart_eq_iff h.label).mpr hindent)
    · obtain ⟨behind, hbehind, -⟩ := Text.eq_append_of_lines hlines
      obtain ⟨returns, hcut, -⟩ := hholds.cut
      refine ⟨returns ++ behind, ?_⟩
      rw [hbehind, hcut]
      simp only [List.append_assoc]
  next hnone =>
    refine ⟨rfl, ?_⟩
    dsimp only
    rw [h.cut]
    refine .unterminated fun l hl hindent => ?_
    rw [Text.lines_append_feed body hfeed, List.tail_cons] at hl
    exact terminator?_eq_none_iff.mp hnone l hl ((terminatorPart_eq_iff h.label).mpr hindent)

/-- No scan of the body of a heredoc reports that something is unterminated. -/
theorem code_of_mem_scan (hforms : ∀ form ∈ spec.interpolations, form.opener ≠ [])
    (literals : List Delimited) (budget : Nat) (f : Frame) (origin : Nat) :
    ∀ d ∈ (f.scan spec literals budget origin).diagnostics, d.code ≠ .unterminatedRegion := by
  have hhost : ∀ form ∈ (f.place spec literals origin).host.forms, form.opener ≠ [] := hforms
  rw [Frame.scan_eq]
  split
  · exact List.forall_mem_nil _
  · exact code_of_mem_scanBody hhost budget _ _

theorem Ends.code_of_mem_missing {introducer : Text} {length : Nat} {missing : List Diagnostic}
    (h : Ends offset introducer label indented rest length missing) :
    ∀ d ∈ missing, d.code = .unterminatedRegion := by
  rcases h with _ | _
  · exact List.forall_mem_nil _
  · exact List.forall_mem_singleton.mpr rfl

/-- **A heredoc is found by its introducer and ends by lines.** One is found where a text begins
with an introducer, and nowhere else, with any literals around it and any budget. Then the lines
behind the introducer decide where it ends, and whether it is reported as unterminated. In single
quotes the label turns zones off. -/
theorem matchHeredoc?_by_lines (hforms : ∀ form ∈ spec.interpolations, form.opener ≠ [])
    (literals : List Delimited) (budget offset : Nat) (t : Text) :
    ((∃ found, matchHeredoc? spec literals budget offset t = some found) ↔
      ∃ flag quote label rest, spec.Begins t flag quote label rest) ∧
    ∀ found, matchHeredoc? spec literals budget offset t = some found →
      ∀ flag quote label rest, spec.Begins t flag quote label rest →
        Ends offset (spec.introducer flag quote label) label flag.isSome rest found.length
          (found.diagnostics.filter (·.code = .unterminatedRegion)) ∧
        (quote = some '\'' → found.zones = []) := by
  constructor
  · constructor
    · rintro ⟨found, hfound⟩
      obtain ⟨header, hheader⟩ : ∃ header, header? spec t = some header := by
        refine Option.ne_none_iff_exists'.mp fun hnone => ?_
        rw [matchHeredoc?, hnone] at hfound
        cases hfound
      obtain ⟨flag, quote, label, rest, hbegins, -⟩ := header?_eq_some_iff.mp hheader
      exact ⟨flag, quote, label, rest, hbegins⟩
    · rintro ⟨flag, quote, label, rest, hbegins⟩
      obtain ⟨f, hframe, -⟩ := hbegins.ends offset
      exact ⟨_, by rw [matchHeredoc?_eq, hframe, Option.map_some]⟩
  · intro found hfound flag quote label rest hbegins
    obtain ⟨f, hframe, hheader, hends⟩ := hbegins.ends offset
    rw [matchHeredoc?_eq, hframe, Option.map_some, Option.some_inj] at hfound
    subst hfound
    have hcodes := code_of_mem_scan hforms literals budget f offset
    have hreports : (f.missing ++ (f.scan spec literals budget offset).diagnostics).filter
        (·.code = .unterminatedRegion) = f.missing := by
      rw [List.filter_append,
        List.filter_eq_self.mpr fun d hd => decide_eq_true (hends.code_of_mem_missing d hd),
        List.filter_eq_nil_iff.mpr fun d hd => by simpa using hcodes d hd, List.append_nil]
    rw [hreports]
    refine ⟨hends, ?_⟩
    rintro rfl
    rw [Frame.scan_eq, hheader]
    rfl

/-- The case of a label with a flag, in front of a line that goes on behind the label, a line with
the label in a tab and two carriage returns, and some text behind that. -/
theorem matchHeredoc?_by_lines_indented :
    let spec : Heredoc := ⟨['<', '<'], ['~', '-'], none, [.sigil '$' none]⟩
    let rest : Text :=
      ['+', '\n', '$', 'x', '\n', 'A', 'B', '\n', '\t', 'A', '\r', '\r', '\n', 'y']
    let t : Text := ['<', '<', '~', '"', 'A', '"'] ++ rest
    (∀ form ∈ spec.interpolations, form.opener ≠ []) ∧
    spec.Begins t (some '~') (some '"') ['A'] rest ∧
    (matchHeredoc? spec [] 1 0 t).map (fun found => (found.length, found.zones.map (·.span))) =
      some (16, [⟨8, 10⟩]) ∧
    ∃ found, matchHeredoc? spec [] 1 0 t = some found ∧
      Ends 0 (spec.introducer (some '~') (some '"') ['A']) ['A'] true rest found.length
        (found.diagnostics.filter (·.code = .unterminatedRegion)) := by
  intro spec rest t
  have hforms : ∀ form ∈ spec.interpolations, form.opener ≠ [] := by decide
  have hbegins : spec.Begins t (some '~') (some '"') ['A'] rest := by
    refine ⟨rfl, ?_, nofun, ?_, 'A', [], rfl, rfl, List.forall_mem_nil _, ?_⟩
    · exact fun c hc => Option.some.inj hc ▸ List.mem_cons_self
    · exact fun q hq => Option.some.inj hq ▸ List.mem_cons_of_mem _ List.mem_cons_self
    · exact fun d hd => Option.some.inj hd ▸ rfl
  obtain ⟨hfound, hends⟩ := matchHeredoc?_by_lines hforms [] 1 0 t
  obtain ⟨found, hmatch⟩ := hfound.mpr ⟨_, _, _, _, hbegins⟩
  exact ⟨hforms, hbegins, by decide, found, hmatch, (hends found hmatch _ _ _ _ hbegins).1⟩

end Heredoc

end Polylex
