import Polylex.Proofs.Literal.Brackets
import Polylex.Proofs.Literal.Exhausted
import Polylex.Proofs.Literal.Zones

/-!
# The loops through bodies and expressions end

Scanning a body and searching the end of an expression are loops that call each other: a body calls
a search where a zone opens, and a search calls the scan of a literal that it skips. The functions
that run are structural on the text and pass over one character at a time, so they end whatever
the delimiters are. The loops themselves do not: they jump to where the last iteration, or the loop
that it called, has come to, and with an empty delimiter they would stay where they are
(`Polylex.Literal.BodyLoop.finish_of_empty_opener`).

This file is about the loops with their jumps. `Polylex.Literal.BodyLoop` and
`Polylex.Literal.SearchLoop` are the loops at the start of an iteration, with the loop that the
iteration calls, if any, and what the iteration makes of its answer. They are run as they are
written by `Polylex.Literal.BodyLoop.finish`, which gives up after a number of iterations and calls
inside each other. If the delimiters are not empty (`Polylex.Literal.Stage.Usable`), then

* every iteration and every call goes forward in the text and does not leave it
  (`Polylex.Literal.Stage.Usable.next`, `Polylex.Literal.Stage.Usable.call`);
* a loop needs no more iterations and calls inside each other than there are characters, and ends
  with the answer of the function that runs (`Polylex.Literal.Stage.Usable.finish_eq`);
* of the bodies that are open at a time there is at most one more than the budget allows levels
  (`Polylex.Literal.Open.add_budget_le`).
-/

namespace Polylex

/-! ### Delimiters that are not empty -/

/-- The delimiters of a form are not empty. -/
def Interpolation.HasDelimiters (form : Interpolation) : Prop :=
  ∀ opener closer g, form = .braced opener closer g → opener ≠ [] ∧ closer ≠ []

theorem Interpolation.HasDelimiters.opener_ne_nil {form : Interpolation}
    (h : form.HasDelimiters) : form.opener ≠ [] := by
  have husable : form.Usable fun _ => true := ⟨h, fun _ _ => rfl⟩
  exact husable.opener_ne_nil

/-- The literal opens with something, and so do the expressions in it, which end with something. -/
structure Delimited.HasDelimiters (spec : Delimited) : Prop where
  opener : spec.opener ≠ []
  forms : ∀ form ∈ spec.interpolations, form.HasDelimiters

namespace Literal

/-- The literal that is scanned, and all that may be inside it, have delimiters. -/
structure Host.HasDelimiters (h : Host) : Prop where
  opener : ∀ opener, h.opener = some opener → opener ≠ []
  forms : ∀ form ∈ h.forms, form.HasDelimiters
  literals : ∀ spec ∈ h.literals, spec.HasDelimiters

/-! ### The loops -/

/-- How the end of an expression is searched with a budget: not at all without any. -/
def searchWith : (budget : Nat) → Option CloserSearch
  | 0 => none
  | budget + 1 => some (findCloser budget)

theorem scanBody_eq (budget : Nat) (host : Host) (offset : Nat) (t : Text) :
    scanBody budget host offset t = scanFrom (searchWith budget) host 0 false offset t := by
  cases budget <;> rfl

theorem sound_searchWith (budget : Nat) : ∀ find ∈ searchWith budget, CloserSearch.Sound find := by
  rintro find hfind
  cases budget with
  | zero => cases hfind
  | succ budget =>
    cases hfind
    exact sound_findCloser budget

/-- The loop through a body at the start of an iteration. The text goes up to the limit. -/
structure BodyLoop extends Place where
  budget : Nat
  plain : Bool := false

/-- The loop through an expression at the start of an iteration. The text goes up to the limit,
and `depth` brackets are open. -/
structure SearchLoop extends Query where
  budget : Nat
  depth : Nat := 0

namespace BodyLoop

/-- What the loop answers, by the function that runs. -/
def scan (s : BodyLoop) : BodyScan :=
  scanFrom (searchWith s.budget) s.host 0 s.plain s.offset s.text

/-- The search that an iteration calls: none where the body ends, where a character is escaped,
once an opening delimiter was unmatched, and without any budget. -/
def call? (s : BodyLoop) : Option SearchLoop :=
  match s.text with
  | [] => none
  | c :: _ =>
    if (s.host.closingLength? s.text).isSome then none
    else if s.host.escape = some c then none
    else if c = '\n' && !s.host.multiline then none
    else if s.plain || s.budget = 0 then none
    else (query? s.host s.offset s.text s.host.forms).map fun q => ⟨q, s.budget - 1, 0⟩

/-- What an iteration reads, given the answer of the search that it calls. There is nothing to
read where the body ends. -/
def read? (s : BodyLoop) (answer : Option Nat) : Option Segment :=
  firstSegment? (if s.budget = 0 then none else some fun _ _ _ _ _ => answer) s.host s.plain
    s.offset s.text

/-- The loop behind what an iteration reads. -/
def behind (s : BodyLoop) (seg : Segment) : BodyLoop :=
  { s with
    plain := seg.plainAfter s.plain
    offset := s.offset + seg.text.width
    text := s.text.drop seg.text.length }

end BodyLoop

namespace SearchLoop

/-- What the loop answers, by the function that runs. -/
def answer (s : SearchLoop) : Option Nat :=
  closerFrom (scanBody s.budget) s.closer s.literals s.host 0 s.depth s.offset s.text

/-- The literal that starts where the loop stands, unless a closing delimiter does. -/
def nested? (s : SearchLoop) : Option (Host × Text) :=
  if s.text.isEmpty || s.closer.isPrefixOf s.text then none
  else nestedLiteral? s.literals s.host s.offset s.text

/-- The scan that an iteration calls, which is of the body of a literal. -/
def call? (s : SearchLoop) : Option BodyLoop :=
  s.nested?.map fun literal =>
    { host := literal.1
      offset := s.offset + literal.2.width
      text := s.text.drop literal.2.length
      budget := s.budget }

/-- What an iteration reads, with the number of brackets that are open then, given the scan of the
body that it calls. Otherwise the loop ends, and an answer is given. -/
def read (s : SearchLoop) (body : BodyScan) : Text × Nat ⊕ Option Nat :=
  match s.text with
  | [] => .inr none
  | c :: _ =>
    if s.closer.isPrefixOf s.text then
      match s.depth with
      | 0 => .inr (some 0)
      | depth + 1 => .inl (s.closer, depth)
    else
      match s.nested? with
      | some (_, opener) =>
        if body.closed then .inl (s.text.take (opener.length + body.length), s.depth)
        else .inr none
      | none =>
        .inl ([c], if openingBracket? s.closer = some c then s.depth + 1 else s.depth)

/-- The loop behind what an iteration reads. -/
def behind (s : SearchLoop) (passed : Text) (depth : Nat) : SearchLoop :=
  { s with
    depth := depth
    offset := s.offset + passed.width
    text := s.text.drop passed.length }

end SearchLoop

mutual

/-- Runs the loop through a body as it is written. Gives up after a number of iterations and calls
inside each other. -/
def BodyLoop.finish : (steps : Nat) → BodyLoop → Option BodyScan
  | 0, _ => none
  | steps + 1, s =>
    (s.call?.elim (some none) fun q => q.finish steps).bind fun answer =>
      match s.read? answer with
      | none => some (bodyEnd s.host s.text)
      | some seg => ((s.behind seg).finish steps).map (·.after s.host s.offset seg)

/-- Runs the loop through an expression as it is written. -/
def SearchLoop.finish : (steps : Nat) → SearchLoop → Option (Option Nat)
  | 0, _ => none
  | steps + 1, s =>
    (s.call?.elim (some {}) fun b => b.finish steps).bind fun body =>
      match s.read body with
      | .inr answer => some answer
      | .inl (passed, depth) =>
        ((s.behind passed depth).finish steps).map fun answer => answer.map (· + passed.length)

end

/-! ### Iterations -/

/-- What the search that an iteration calls answers. -/
def BodyLoop.found (s : BodyLoop) : Option Nat := s.call?.bind SearchLoop.answer

/-- The loop through a body in its next iteration, if it does not end in this one. -/
def BodyLoop.next? (s : BodyLoop) : Option BodyLoop := (s.read? s.found).map s.behind

/-- The scan of the body that an iteration calls. -/
def SearchLoop.skipped (s : SearchLoop) : BodyScan := s.call?.elim {} BodyLoop.scan

/-- The loop through an expression in its next iteration, if it does not end in this one. -/
def SearchLoop.next? (s : SearchLoop) : Option SearchLoop :=
  (s.read s.skipped).elim (fun (passed, depth) => some (s.behind passed depth)) fun _ => none

/-- **The search is asked by the call only.** What an iteration reads is what stands at the start
of the text, for the search that runs. -/
theorem BodyLoop.read?_found (s : BodyLoop) :
    s.read? s.found = firstSegment? (searchWith s.budget) s.host s.plain s.offset s.text := by
  obtain ⟨⟨host, offset, t⟩, budget, plain⟩ := s
  rw [read?]
  cases budget with
  | zero => rfl
  | succ budget =>
    cases t with
    | nil => rfl
    | cons c t =>
      dsimp only [searchWith]
      rw [if_neg (Nat.succ_ne_zero budget), firstSegment?, firstSegment?]
      by_cases hclose : (host.closingLength? (c :: t)).isSome = true
      · rw [if_pos hclose, if_pos hclose]
      rw [if_neg hclose, if_neg hclose]
      by_cases hescape : host.escape = some c
      · rw [if_pos hescape, if_pos hescape]
      rw [if_neg hescape, if_neg hescape]
      by_cases hfeed : (c = '\n' && !host.multiline) = true
      · rw [if_pos hfeed, if_pos hfeed]
      rw [if_neg hfeed, if_neg hfeed]
      cases plain with
      | true => rfl
      | false =>
        have hopening : opening?
            (some fun _ _ _ _ _ => found ⟨⟨host, offset, c :: t⟩, budget + 1, false⟩)
              host offset (c :: t) host.forms =
            opening? (some (findCloser budget)) host offset (c :: t) host.forms := by
          refine opening?_congr fun q hq => ?_
          have hcall : BodyLoop.call? ⟨⟨host, offset, c :: t⟩, budget + 1, false⟩ =
              some ⟨q, budget, 0⟩ := by
            rw [call?]
            dsimp only
            rw [if_neg hclose, if_neg hescape, if_neg hfeed, Option.mem_def.mp hq]
            rfl
          rw [found, hcall]
          rfl
        rw [if_neg Bool.false_ne_true, if_neg Bool.false_ne_true, hopening]

/-! ### Stages -/

/-- A loop at the start of an iteration. -/
inductive Stage where
  | body (s : BodyLoop)
  | search (s : SearchLoop)

namespace Stage

def offset : Stage → Nat
  | body s => s.offset
  | search s => s.offset

/-- The text up to the limit. -/
def text : Stage → Text
  | body s => s.text
  | search s => s.text

def budget : Stage → Nat
  | body s => s.budget
  | search s => s.budget

/-- The offset of the limit. -/
def limit (c : Stage) : Nat := c.offset + c.text.width

/-- The loop in its next iteration, if it does not end in this one. -/
def next? : Stage → Option Stage
  | body s => s.next?.map body
  | search s => s.next?.map search

/-- The loop that the iteration calls. -/
def call? : Stage → Option Stage
  | body s => s.call?.map search
  | search s => s.call?.map body

/-- **A loop that can be run**: no delimiter that it may meet is empty. -/
def Usable : Stage → Prop
  | body s => s.host.HasDelimiters
  | search s => s.closer ≠ [] ∧ s.host.HasDelimiters ∧ ∀ spec ∈ s.literals, spec.HasDelimiters

/-- A stage is further on in the same text, up to the same limit. -/
def Before (c c' : Stage) : Prop :=
  ∃ p : Text, p ≠ [] ∧ c.text = p ++ c'.text ∧ c'.offset = c.offset + p.width

variable {c c' : Stage}

theorem Before.offset_lt (h : c.Before c') : c.offset < c'.offset := by
  obtain ⟨p, hp, -, hoffset⟩ := h
  rw [hoffset]
  exact Nat.lt_add_of_pos_right (Text.width_pos hp)

theorem Before.limit_eq (h : c.Before c') : c'.limit = c.limit := by
  obtain ⟨p, -, htext, hoffset⟩ := h
  rw [limit, limit, htext, hoffset, Text.width_append, Nat.add_assoc]

theorem Before.length_lt (h : c.Before c') : c'.text.length < c.text.length := by
  obtain ⟨p, hp, htext, -⟩ := h
  have hpos : 0 < p.length := List.length_pos_iff.mpr hp
  rw [htext, List.length_append]
  omega

end Stage

/-! ### Through a body -/

theorem BodyLoop.forms_ne_nil {s : BodyLoop} (h : s.host.HasDelimiters) :
    ∀ form ∈ s.host.forms, form.opener ≠ [] :=
  fun form hform => (h.forms form hform).opener_ne_nil

/-- **An iteration of the loop through a body** ends it, or reads something and leaves the rest. -/
theorem BodyLoop.scan_eq_of_read? {s : BodyLoop} (h : s.host.HasDelimiters) {seg : Segment}
    (hread : s.read? s.found = some seg) :
    seg.text ≠ [] ∧ s.text = seg.text ++ (s.behind seg).text ∧
      s.scan = (s.behind seg).scan.after s.host s.offset seg := by
  rw [read?_found] at hread
  obtain ⟨rest, htext, hne, hscan⟩ :=
    exists_scanFrom_eq_after (forms_ne_nil h) (sound_searchWith s.budget) hread
  have hrest : s.text.drop seg.text.length = rest := by rw [htext, List.drop_left]
  refine ⟨hne, ?_, ?_⟩
  · rw [behind, hrest]
    exact htext
  · rw [scan, scan, behind, hrest]
    exact hscan

theorem BodyLoop.scan_eq_bodyEnd {s : BodyLoop} (hread : s.read? s.found = none) :
    s.scan = bodyEnd s.host s.text :=
  scanFrom_eq_bodyEnd (read?_found s ▸ hread)

theorem BodyLoop.before_of_next? {s s' : BodyLoop} (h : s.host.HasDelimiters)
    (hnext : s.next? = some s') :
    s'.host = s.host ∧ s'.budget = s.budget ∧ (Stage.body s).Before (.body s') := by
  obtain ⟨seg, hseg, rfl⟩ := Option.map_eq_some_iff.mp hnext
  obtain ⟨hne, htext, -⟩ := scan_eq_of_read? h hseg
  exact ⟨rfl, rfl, seg.text, hne, htext, rfl⟩

/-- The search of an iteration begins behind the opening delimiter of a form, for the closing
delimiter of the form. -/
theorem exists_form_of_query? {host : Host} {offset : Nat} {t : Text} {forms : List Interpolation}
    {q : Query} (h : query? host offset t forms = some q) :
    q.host = host ∧ (q.literals = host.literals ∨ q.literals = []) ∧
      ∃ opener g, .braced opener q.closer g ∈ forms ∧ t = opener ++ q.text ∧
        q.offset = offset + opener.width := by
  induction forms with
  | nil => cases h
  | cons form forms ih =>
    have hlater (h : query? host offset t forms = some q) :
        q.host = host ∧ (q.literals = host.literals ∨ q.literals = []) ∧
          ∃ opener g, .braced opener q.closer g ∈ form :: forms ∧ t = opener ++ q.text ∧
            q.offset = offset + opener.width := by
      obtain ⟨hhost, hliterals, opener, g, hmem, hat⟩ := ih h
      exact ⟨hhost, hliterals, opener, g, List.mem_cons_of_mem form hmem, hat⟩
    cases form with
    | braced opener closer g =>
      rw [query?] at h
      split at h
      next hopen =>
        obtain ⟨rest, rfl⟩ := List.isPrefixOf_iff_prefix.mp hopen
        cases h
        refine ⟨rfl, ?_, opener, g, List.mem_cons_self, by simp, rfl⟩
        dsimp only
        split
        · exact .inl rfl
        · exact .inr rfl
      next => exact hlater h
    | sigil mark g =>
      cases t with
      | nil => cases h
      | cons c t =>
        rw [query?] at h
        split at h
        · cases h
        · exact hlater h

/-- **The search that an iteration calls** is further on, has less budget and can be run. -/
theorem BodyLoop.before_of_call? {s : BodyLoop} (h : s.host.HasDelimiters) {q : SearchLoop}
    (hcall : s.call? = some q) :
    q.budget < s.budget ∧ (Stage.search q).Usable ∧ (Stage.body s).Before (.search q) := by
  rw [call?] at hcall
  split at hcall
  · cases hcall
  split at hcall
  · cases hcall
  split at hcall
  · cases hcall
  split at hcall
  · cases hcall
  split at hcall
  · cases hcall
  next hbudget =>
  obtain ⟨query, hquery, rfl⟩ := Option.map_eq_some_iff.mp hcall
  obtain ⟨hhost, hliterals, opener, g, hform, htext, hoffset⟩ := exists_form_of_query? hquery
  obtain ⟨hopener, hcloser⟩ := h.forms _ hform _ _ _ rfl
  have hpos : s.budget ≠ 0 := by
    intro hzero
    simp [hzero] at hbudget
  refine ⟨Nat.sub_one_lt hpos, ⟨hcloser, ?_, ?_⟩, opener, hopener, htext, hoffset⟩
  · exact hhost ▸ h
  · rcases hliterals with heq | hnil
    · exact heq ▸ h.literals
    · intro spec hspec
      dsimp only at hspec
      rw [hnil] at hspec
      cases hspec

/-! ### Through an expression -/

/-- A body does not reach beyond its text. -/
theorem BodyLoop.length_scan_le {s : BodyLoop} (h : s.host.HasDelimiters) :
    s.scan.length ≤ s.text.length := by
  obtain ⟨content, hholds⟩ := exists_content_scanFrom (forms_ne_nil h)
    (sound_searchWith s.budget) s.plain s.offset s.text
  exact hholds.length_eq.trans_le hholds.reads.length_le

/-- A literal inside an expression stands there with its opening delimiter, which is not empty. -/
theorem opener_of_nestedLiteral? {literals : List Delimited} {host inner : Host} {offset : Nat}
    {t opener : Text} (hhost : host.HasDelimiters)
    (hliterals : ∀ spec ∈ literals, spec.HasDelimiters)
    (h : nestedLiteral? literals host offset t = some (inner, opener)) :
    opener ≠ [] ∧ opener <+: t ∧ inner.HasDelimiters := by
  rw [nestedLiteral?] at h
  split at h
  next spec hfind =>
    cases h
    have hspec := hliterals spec (List.mem_of_find?_eq_some hfind)
    have hbegins : spec.opener <+: t := by simpa using List.find?_some hfind
    refine ⟨hspec.opener, hbegins, ?_⟩
    exact ⟨fun opener ho => Option.some.inj ho ▸ hspec.opener, hspec.forms, hliterals⟩
  next =>
    split at h
    next opener' hopener =>
      split at h
      next hbegins =>
        cases h
        exact ⟨hhost.opener _ hopener, List.isPrefixOf_iff_prefix.mp hbegins, hhost.opener,
          hhost.forms, hhost.literals⟩
      next => cases h
    next => cases h

/-- An expression skips a literal that stands where the loop does, if no closing delimiter does. -/
theorem SearchLoop.nested?_eq_some_iff {s : SearchLoop} {inner : Host} {opener : Text} :
    s.nested? = some (inner, opener) ↔
      (s.text ≠ [] ∧ ¬s.closer.isPrefixOf s.text = true) ∧
        nestedLiteral? s.literals s.host s.offset s.text = some (inner, opener) := by
  rw [nested?, Option.ite_none_left_eq_some]
  simp

/-- **The body that an iteration calls** is further on, has the budget of the search and can be
scanned. -/
theorem SearchLoop.before_of_call? {s : SearchLoop} (h : (Stage.search s).Usable) {b : BodyLoop}
    (hcall : s.call? = some b) :
    b.budget = s.budget ∧ (Stage.body b).Usable ∧ (Stage.search s).Before (.body b) := by
  obtain ⟨-, hhost, hliterals⟩ := h
  obtain ⟨⟨inner, opener⟩, hnested, rfl⟩ := Option.map_eq_some_iff.mp hcall
  obtain ⟨hopener, ⟨rest, hrest⟩, hinner⟩ :=
    opener_of_nestedLiteral? hhost hliterals (nested?_eq_some_iff.mp hnested).2
  refine ⟨rfl, hinner, opener, hopener, ?_, rfl⟩
  change s.text = opener ++ s.text.drop opener.length
  rw [← hrest, List.drop_left]

theorem SearchLoop.skipped_eq {s : SearchLoop} {inner : Host} {opener : Text}
    (h : s.nested? = some (inner, opener)) :
    s.skipped = scanBody s.budget inner (s.offset + opener.width) (s.text.drop opener.length) := by
  rw [skipped, call?, h, scanBody_eq]
  rfl

/-- A literal inside an expression ends inside its text. -/
theorem SearchLoop.length_skipped_le {s : SearchLoop} (h : (Stage.search s).Usable) {inner : Host}
    {opener : Text} (hnested : s.nested? = some (inner, opener)) :
    opener.length + s.skipped.length ≤ s.text.length := by
  obtain ⟨-, hhost, hliterals⟩ := h
  have hcall : s.call? = some ⟨⟨inner, s.offset + opener.width, s.text.drop opener.length⟩,
      s.budget, false⟩ := by
    rw [call?, hnested]
    rfl
  obtain ⟨-, hbegins, hinner⟩ :=
    opener_of_nestedLiteral? hhost hliterals (nested?_eq_some_iff.mp hnested).2
  have hle := BodyLoop.length_scan_le
    (s := ⟨⟨inner, s.offset + opener.width, s.text.drop opener.length⟩, s.budget, false⟩) hinner
  have hopener := hbegins.length_le
  rw [skipped, hcall]
  rw [List.length_drop] at hle
  dsimp only [Option.elim_some]
  omega

/-- **A literal that ends is passed over as a whole**, and the loop goes on behind it. -/
theorem SearchLoop.answer_eq_of_literal {s : SearchLoop} (h : (Stage.search s).Usable)
    {inner : Host} {opener : Text} (hnested : s.nested? = some (inner, opener))
    (hclosed : s.skipped.closed = true) :
    let passed := s.text.take (opener.length + s.skipped.length)
    passed ≠ [] ∧ s.text = passed ++ (s.behind passed s.depth).text ∧
      s.answer = (s.behind passed s.depth).answer.map (· + passed.length) := by
  intro passed
  obtain ⟨⟨htext, hstart⟩, hliteral⟩ := nested?_eq_some_iff.mp hnested
  obtain ⟨hopener, -, -⟩ := opener_of_nestedLiteral? h.2.1 h.2.2 hliteral
  have hlength : passed.length = opener.length + s.skipped.length :=
    List.length_take_of_le (length_skipped_le h hnested)
  have hpassed : passed ≠ [] := by
    have hpos : 0 < opener.length := List.length_pos_iff.mpr hopener
    rw [← List.length_pos_iff, hlength]
    omega
  have hcut : s.text = passed ++ s.text.drop passed.length := by
    rw [hlength]
    exact (List.take_append_drop _ _).symm
  refine ⟨hpassed, hcut, ?_⟩
  obtain ⟨c, t, hcons⟩ := List.exists_cons_of_ne_nil htext
  rw [skipped_eq hnested] at hclosed hlength
  rw [answer, answer, behind, hcons, closerFrom.eq_def]
  dsimp only
  rw [← hcons, if_neg hstart, hliteral]
  dsimp only
  rw [if_pos hclosed, ← hlength]
  exact closerFrom_pass (hcons ▸ hcut) hpassed

/-- **An iteration of the loop through an expression** that reads something leaves the rest. -/
theorem SearchLoop.answer_eq_of_read {s : SearchLoop} (h : (Stage.search s).Usable)
    {passed : Text} {depth : Nat} (hread : s.read s.skipped = .inl (passed, depth)) :
    passed ≠ [] ∧ s.text = passed ++ (s.behind passed depth).text ∧
      s.answer = (s.behind passed depth).answer.map (· + passed.length) := by
  obtain ⟨⟨closer, literals, host, offset, t⟩, budget, depth'⟩ := s
  cases t with
  | nil => cases hread
  | cons c t =>
    rw [read] at hread
    dsimp only at hread
    split at hread
    next hclose =>
      obtain ⟨rest, hrest⟩ := List.isPrefixOf_iff_prefix.mp hclose
      split at hread
      · cases hread
      next d =>
        cases hread
        rw [answer, answer, behind]
        dsimp only
        rw [← hrest, List.drop_left]
        exact ⟨h.1, rfl, closerFrom_closer_succ h.1⟩
    next hstart =>
      split at hread
      next inner opener hnested =>
        split at hread
        next hclosed =>
          cases hread
          exact answer_eq_of_literal h hnested hclosed
        next => cases hread
      next hnested =>
        cases hread
        have hliteral : nestedLiteral? literals host offset (c :: t) = none := by
          rwa [nested?, if_neg (by simpa using hstart)] at hnested
        have hbegins : ¬closer <+: c :: t := by simpa using hstart
        refine ⟨List.cons_ne_nil c [], rfl, ?_⟩
        exact closerFrom_character hbegins hliteral

/-- An iteration that ends the loop through an expression gives its answer. -/
theorem SearchLoop.answer_eq_of_ends {s : SearchLoop} {found : Option Nat}
    (hread : s.read s.skipped = .inr found) : s.answer = found := by
  obtain ⟨⟨closer, literals, host, offset, t⟩, budget, depth⟩ := s
  rw [answer]
  dsimp only
  cases t with
  | nil =>
    cases hread
    rfl
  | cons c t =>
    rw [read] at hread
    dsimp only at hread
    rw [closerFrom.eq_def]
    dsimp only
    split at hread
    next hclose =>
      rw [if_pos hclose]
      split at hread
      · cases hread
        rfl
      · cases hread
    next hstart =>
      rw [if_neg hstart]
      split at hread
      next inner opener hnested =>
        rw [skipped_eq hnested] at hread
        split at hread
        · cases hread
        next hopen =>
          cases hread
          rw [(nested?_eq_some_iff.mp hnested).2]
          exact if_neg hopen
      next => cases hread

theorem SearchLoop.before_of_next? {s s' : SearchLoop} (h : (Stage.search s).Usable)
    (hnext : s.next? = some s') :
    s'.budget = s.budget ∧ (Stage.search s').Usable ∧ (Stage.search s).Before (.search s') := by
  rw [next?] at hnext
  cases hread : s.read s.skipped with
  | inr found =>
    rw [hread] at hnext
    cases hnext
  | inl result =>
    rw [hread] at hnext
    cases hnext
    obtain ⟨hne, htext, -⟩ := answer_eq_of_read h hread
    exact ⟨rfl, h, result.1, hne, htext, rfl⟩

/-! ### Any loop -/

namespace Stage.Usable

variable {c c' : Stage}

/-- **Every iteration goes forward**, in the same text and with the same budget. -/
theorem next (h : c.Usable) (hnext : c.next? = some c') :
    c'.budget = c.budget ∧ c'.Usable ∧ c.Before c' := by
  cases c with
  | body s =>
    obtain ⟨s', hs, rfl⟩ := Option.map_eq_some_iff.mp hnext
    obtain ⟨hhost, hbudget, hbefore⟩ := BodyLoop.before_of_next? h hs
    refine ⟨hbudget, ?_, hbefore⟩
    change s'.host.HasDelimiters
    rw [hhost]
    exact h
  | search s =>
    obtain ⟨s', hs, rfl⟩ := Option.map_eq_some_iff.mp hnext
    exact SearchLoop.before_of_next? h hs

/-- **Every call goes forward** in the same text, and does not have more budget. -/
theorem call (h : c.Usable) (hcall : c.call? = some c') :
    c'.budget ≤ c.budget ∧ c'.Usable ∧ c.Before c' := by
  cases c with
  | body s =>
    obtain ⟨q, hq, rfl⟩ := Option.map_eq_some_iff.mp hcall
    obtain ⟨hlt, hrest⟩ := BodyLoop.before_of_call? h hq
    exact ⟨Nat.le_of_lt hlt, hrest⟩
  | search s =>
    obtain ⟨b, hb, rfl⟩ := Option.map_eq_some_iff.mp hcall
    obtain ⟨heq, hrest⟩ := SearchLoop.before_of_call? h hb
    exact ⟨Nat.le_of_eq heq, hrest⟩

/-- **The loops end**, after no more iterations and calls inside each other than there are
characters and one more, and answer what the functions that run answer. -/
theorem finish_eq (steps : Nat) :
    (∀ s : BodyLoop, (body s).Usable → s.text.length < steps → s.finish steps = some s.scan) ∧
      ∀ s : SearchLoop, (search s).Usable → s.text.length < steps →
        s.finish steps = some s.answer := by
  induction steps with
  | zero => exact ⟨fun s _ hlt => absurd hlt (Nat.not_lt_zero _),
      fun s _ hlt => absurd hlt (Nat.not_lt_zero _)⟩
  | succ steps ih =>
    obtain ⟨ihbody, ihsearch⟩ := ih
    constructor
    · intro s h hlt
      have hcalled : (s.call?.elim (some none) fun q => q.finish steps) = some s.found := by
        rw [BodyLoop.found]
        cases hcall : s.call? with
        | none => rfl
        | some q =>
          obtain ⟨-, husable, hbefore⟩ := BodyLoop.before_of_call? h hcall
          exact ihsearch q husable (Nat.lt_of_lt_of_le hbefore.length_lt (Nat.le_of_lt_succ hlt))
      rw [BodyLoop.finish, hcalled]
      dsimp only [Option.bind_some]
      cases hread : s.read? s.found with
      | none => rw [BodyLoop.scan_eq_bodyEnd hread]
      | some seg =>
        obtain ⟨hne, htext, hscan⟩ := BodyLoop.scan_eq_of_read? h hread
        have hbefore : (body s).Before (body (s.behind seg)) := ⟨seg.text, hne, htext, rfl⟩
        have hfinish := ihbody (s.behind seg) h
          (Nat.lt_of_lt_of_le hbefore.length_lt (Nat.le_of_lt_succ hlt))
        dsimp only
        rw [hfinish, hscan]
        rfl
    · intro s h hlt
      have hcalled : (s.call?.elim (some {}) fun b => b.finish steps) = some s.skipped := by
        rw [SearchLoop.skipped]
        cases hcall : s.call? with
        | none => rfl
        | some b =>
          obtain ⟨-, husable, hbefore⟩ := SearchLoop.before_of_call? h hcall
          exact ihbody b husable (Nat.lt_of_lt_of_le hbefore.length_lt (Nat.le_of_lt_succ hlt))
      rw [SearchLoop.finish, hcalled]
      dsimp only [Option.bind_some]
      cases hread : s.read s.skipped with
      | inr found => rw [SearchLoop.answer_eq_of_ends hread]
      | inl result =>
        obtain ⟨passed, depth⟩ := result
        obtain ⟨hne, htext, hanswer⟩ := SearchLoop.answer_eq_of_read h hread
        have hbefore : (search s).Before (search (s.behind passed depth)) :=
          ⟨passed, hne, htext, rfl⟩
        have hfinish := ihsearch (s.behind passed depth) h
          (Nat.lt_of_lt_of_le hbefore.length_lt (Nat.le_of_lt_succ hlt))
        dsimp only
        rw [hfinish, hanswer]
        rfl

end Stage.Usable

/-! ### Loops inside each other -/

/-- A stage that the loop through a body comes to, itself or in the loops that it calls, with the
number of bodies that are open then. A call opens a loop inside the ones that are open, and an
iteration closes none. -/
inductive Open (s : BodyLoop) : (bodies : Nat) → Stage → Prop
  | start : Open s 1 (.body s)
  | next {n : Nat} {c c' : Stage} (opened : Open s n c) (next : c.next? = some c') : Open s n c'
  | search {n : Nat} {b : BodyLoop} {q : SearchLoop} (opened : Open s n (.body b))
      (call : b.call? = some q) : Open s n (.search q)
  | body {n : Nat} {q : SearchLoop} {b : BodyLoop} (opened : Open s n (.search q))
      (call : q.call? = some b) : Open s (n + 1) (.body b)

namespace Open

variable {s : BodyLoop} {n : Nat} {c : Stage}

/-- **What all loops keep** that a loop through a body comes to: they can be run, and have the limit
of the outermost. -/
theorem usable (hs : (Stage.body s).Usable) (h : Open s n c) :
    c.Usable ∧ c.limit = (Stage.body s).limit := by
  induction h with
  | start => exact ⟨hs, rfl⟩
  | next _ hnext ih =>
    obtain ⟨-, husable, hbefore⟩ := ih.1.next hnext
    exact ⟨husable, hbefore.limit_eq.trans ih.2⟩
  | search _ hcall ih =>
    obtain ⟨-, husable, hbefore⟩ := BodyLoop.before_of_call? ih.1 hcall
    exact ⟨husable, hbefore.limit_eq.trans ih.2⟩
  | body _ hcall ih =>
    obtain ⟨-, husable, hbefore⟩ := SearchLoop.before_of_call? ih.1 hcall
    exact ⟨husable, hbefore.limit_eq.trans ih.2⟩

/-- **Every body that is open costs a level** but the outermost, and an open search the next. -/
theorem add_budget_le (hs : (Stage.body s).Usable) (h : Open s n c) :
    n + c.budget ≤ s.budget + 1 ∧ ∀ q, c = .search q → n + q.budget ≤ s.budget := by
  induction h with
  | start => exact ⟨Nat.le_of_eq (Nat.add_comm 1 _), nofun⟩
  | @next n c c' opened hnext ih =>
    have hbudget := ((opened.usable hs).1.next hnext).1
    refine ⟨hbudget ▸ ih.1, ?_⟩
    rintro q rfl
    cases c with
    | body b =>
      obtain ⟨b', -, hb'⟩ := Option.map_eq_some_iff.mp hnext
      cases hb'
    | search q' =>
      have heq : q.budget = q'.budget := hbudget
      rw [heq]
      exact ih.2 q' rfl
  | @search n b q opened hcall ih =>
    have hlt : q.budget < b.budget := (BodyLoop.before_of_call? (opened.usable hs).1 hcall).1
    have hle : n + b.budget ≤ s.budget + 1 := ih.1
    refine ⟨?_, ?_⟩
    · change n + q.budget ≤ s.budget + 1
      omega
    · rintro _ ⟨⟩
      omega
  | @body n q b opened hcall ih =>
    have heq : b.budget = q.budget := (SearchLoop.before_of_call? (opened.usable hs).1 hcall).1
    have hle := ih.2 q rfl
    refine ⟨?_, nofun⟩
    change n + 1 + b.budget ≤ s.budget + 1
    omega

end Open

/-- **The loop through a body ends**, with all that it calls. -/
structure BodyLoop.Terminates (s : BodyLoop) : Prop where
  /-- It ends after so many iterations and calls inside each other, with the scan of the body. -/
  finish : s.finish (s.text.length + 1) = some s.scan
  /-- Every iteration advances, and stays at or below the limit. -/
  advances : ∀ n c c', Open s n c → c.next? = some c' →
    c.offset < c'.offset ∧ c'.offset ≤ s.offset + s.text.width
  /-- A body that is scanned on the way ends at or below the limit. -/
  ends : ∀ n b, Open s n (.body b) → b.scan.length ≤ b.text.length
  /-- A search that a body calls has less budget. -/
  deeper : ∀ n b q, Open s n (.body b) → b.call? = some q → q.budget < b.budget
  /-- There is at most one more body open than there are levels. -/
  nested : ∀ n c, Open s n c → n ≤ s.budget + 1

theorem BodyLoop.terminates {s : BodyLoop} (hs : s.host.HasDelimiters) : s.Terminates where
  finish := (Stage.Usable.finish_eq _).1 s hs (Nat.lt_succ_self _)
  advances := by
    intro n c c' hopen hnext
    obtain ⟨husable, hlimit⟩ := hopen.usable hs
    obtain ⟨-, -, hbefore⟩ := husable.next hnext
    refine ⟨hbefore.offset_lt, ?_⟩
    have hlimit' : c'.limit = (Stage.body s).limit := hbefore.limit_eq.trans hlimit
    exact (Nat.le_add_right c'.offset c'.text.width).trans_eq hlimit'
  ends _ _ hopen := length_scan_le (hopen.usable hs).1
  deeper _ _ _ hopen hcall := (before_of_call? (hopen.usable hs).1 hcall).1
  nested n _ hopen := Nat.le_trans (Nat.le_add_right n _) (hopen.add_budget_le hs).1

/-- With an empty opening delimiter the loop through a body does not end: without any budget the
delimiter is kept as text, and the next iteration begins where this one did. -/
theorem BodyLoop.finish_of_empty_opener (closer : Text) (g : Option String) (offset : Nat)
    (c : Char) (t : Text) (steps : Nat) :
    let host : Host := ⟨0, none, none, none, true, [.braced [] closer g], []⟩
    BodyLoop.finish steps { host, offset, text := c :: t, budget := 0 } = none := by
  intro host
  induction steps with
  | zero => rfl
  | succ steps ih =>
    have hcall : BodyLoop.call? { host, offset, text := c :: t, budget := 0 } = none := by
      simp [call?, host, Host.closingLength?]
    have hread : BodyLoop.read? { host, offset, text := c :: t, budget := 0 } none =
        some (.tooDeep []) := by
      simp [read?, host, firstSegment?, Host.closingLength?, opening?, Segment.ofOpening]
    have hbehind : BodyLoop.behind { host, offset, text := c :: t, budget := 0 } (.tooDeep []) =
        { host, offset, text := c :: t, budget := 0 } := rfl
    rw [finish, hcall, Option.elim_none, Option.bind_some, hread]
    dsimp only
    rw [hbehind, ih, Option.map_none]

/-! ### The literals of a set -/

/-- The literals that the rules of a set match, wherever they start. -/
inductive Hosted (set : GrammarSet) : Host → Prop
  | delimited {g : Grammar} {r : Rule} {spec : Delimited} (grammar : g ∈ set.grammars)
      (rule : r ∈ g.rules) (matcher : r.matcher = .delimited spec) (origin : Nat) :
      Hosted set (Host.ofDelimited spec origin g.literals)
  | heredoc {g : Grammar} {r : Rule} {spec : Heredoc} (grammar : g ∈ set.grammars)
      (rule : r ∈ g.rules) (matcher : r.matcher = .heredoc spec) (origin : Nat) :
      Hosted set ⟨origin, none, none, spec.escape, true, spec.interpolations, g.literals⟩

theorem hasDelimiters_of_matcher {set : GrammarSet} (hs : set.Valid) {g : Grammar} {r : Rule}
    {spec : Delimited} (hg : g ∈ set.grammars) (hr : r ∈ g.rules)
    (hmatcher : r.matcher = .delimited spec) : spec.HasDelimiters := by
  obtain ⟨hreads, -, hforms, -⟩ := hs g hg r hr
  rw [hmatcher] at hreads hforms
  refine ⟨?_, fun form hform => (hforms form hform).delimiters⟩
  simpa using (Bool.or_eq_false_iff.mp hreads).1

theorem hasDelimiters_of_mem_literals {set : GrammarSet} (hs : set.Valid) {g : Grammar}
    (hg : g ∈ set.grammars) : ∀ spec ∈ g.literals, spec.HasDelimiters := by
  intro spec hspec
  obtain ⟨r, hr, hspec⟩ := List.mem_filterMap.mp hspec
  split at hspec
  next hmatcher =>
    cases hspec
    exact hasDelimiters_of_matcher hs hg hr hmatcher
  next => cases hspec

/-- **The literals of a set that has been built have delimiters**, and so has all that may be
inside them. -/
theorem Hosted.hasDelimiters {set : GrammarSet} (hs : set.Valid) {host : Host}
    (h : Hosted set host) : host.HasDelimiters := by
  cases h with
  | delimited hg hr hmatcher origin =>
    obtain ⟨hopener, hforms⟩ := hasDelimiters_of_matcher hs hg hr hmatcher
    exact ⟨fun opener ho => Option.some.inj ho ▸ hopener, hforms,
      hasDelimiters_of_mem_literals hs hg⟩
  | heredoc hg hr hmatcher origin =>
    obtain ⟨-, -, hforms, -⟩ := hs _ hg _ hr
    rw [hmatcher] at hforms
    exact ⟨nofun, fun form hform => (hforms form hform).delimiters,
      hasDelimiters_of_mem_literals hs hg⟩

end Literal

end Polylex
