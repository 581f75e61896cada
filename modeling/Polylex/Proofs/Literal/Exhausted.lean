import Polylex.Literal.Body

/-!
# What the scan of a body uses of the levels below it

The levels that are left reach the scan of a body by a single way. Where a zone opens, the
end of its expression is searched; the search skips the literals inside the expression, and
it skips them by scanning their bodies with one level less. Of those scans it uses no more
than their *extent*: how far they reach, and whether they end with a closing delimiter.

So a scan is a computation with an oracle, and this file states its use principle.
`Polylex.Literal.searched` lists the searches that a scan makes, `Polylex.Literal.skipped` the
bodies that a search skips, and two oracles that agree on the list lead to the same result
(`Polylex.Literal.scanFrom_congr`, `Polylex.Literal.closerFrom_congr`). Followed down to the
last level, the lists give the bodies that a scan cannot but scan without any level
(`Polylex.Literal.exhausted`). If those end where they would end with one level more, which
is for each of them a matter of its own text (`Polylex.Literal.Place.Steady`), then the scan
itself is the same with one level more (`Polylex.Literal.scanBody_succ_eq`).
-/

namespace Polylex.Literal

/-! ### Extents -/

/-- How many characters a scan reads, and whether it finds the closing delimiter. -/
def BodyScan.extent (s : BodyScan) : Nat × Bool := (s.length, s.closed)

/-- A body that may be scanned: its literal, its offset, and the text from there on. -/
structure Place where
  host : Host
  offset : Nat
  text : Text
deriving Repr, DecidableEq

namespace Place

/-- The body, scanned in some way. -/
def scan (scanner : BodyScanner) (p : Place) : BodyScan := scanner p.host p.offset p.text

/-- **A body is steady** if it has the same extent without any level and with one level, so
that the limit does not move its end. -/
def Steady (p : Place) : Prop := (p.scan (scanBody 0)).extent = (p.scan (scanBody 1)).extent

instance : DecidablePred Steady := fun p =>
  inferInstanceAs (Decidable ((p.scan (scanBody 0)).extent = (p.scan (scanBody 1)).extent))

end Place

/-! ### The bodies that a search skips -/

/-- The bodies that are scanned in searching the end of an expression. -/
def skipped (scan : BodyScanner) (closer : Text) (literals : List Delimited) (host : Host) :
    (skip depth offset : Nat) → Text → List Place
  | _, _, _, [] => []
  | skip + 1, depth, offset, c :: t =>
    skipped scan closer literals host skip depth (offset + c.utf8Size) t
  | 0, depth, offset, c :: t =>
    let next := offset + c.utf8Size
    if closer.isPrefixOf (c :: t) then
      match depth with
      | 0 => []
      | depth + 1 => skipped scan closer literals host (closer.length - 1) depth next t
    else
      match nestedLiteral? literals host offset (c :: t) with
      | some (inner, opener) =>
        let body := scan inner (offset + opener.width) ((c :: t).drop opener.length)
        ⟨inner, offset + opener.width, (c :: t).drop opener.length⟩ ::
          if body.closed then
            skipped scan closer literals host (opener.length + body.length - 1) depth next t
          else []
      | none =>
        let depth := if openingBracket? closer = some c then depth + 1 else depth
        skipped scan closer literals host 0 depth next t

/-- **A search uses the extents of the bodies that it skips**, and nothing else of the way in
which they are scanned. -/
theorem closerFrom_congr {scan scan' : BodyScanner} {closer : Text} {literals : List Delimited}
    {host : Host} {t : Text} {skip depth offset : Nat}
    (h : ∀ p ∈ skipped scan closer literals host skip depth offset t,
      (p.scan scan').extent = (p.scan scan).extent) :
    closerFrom scan' closer literals host skip depth offset t =
      closerFrom scan closer literals host skip depth offset t := by
  induction t generalizing skip depth offset with
  | nil => cases skip <;> rfl
  | cons c t ih =>
    cases skip with
    | succ skip =>
      rw [skipped] at h
      rw [closerFrom, closerFrom, ih h]
    | zero =>
      rw [skipped.eq_def] at h
      rw [closerFrom.eq_def, closerFrom.eq_def scan]
      dsimp only at h ⊢
      by_cases hclose : closer.isPrefixOf (c :: t) = true
      · rw [if_pos hclose] at h
        rw [if_pos hclose, if_pos hclose]
        cases depth with
        | zero => rfl
        | succ depth =>
          dsimp only at h ⊢
          rw [ih h]
      · rw [if_neg hclose] at h
        rw [if_neg hclose, if_neg hclose]
        cases hnested : nestedLiteral? literals host offset (c :: t) with
        | none =>
          rw [hnested] at h
          dsimp only at h ⊢
          rw [ih h]
        | some literal =>
          obtain ⟨inner, opener⟩ := literal
          rw [hnested] at h
          dsimp only at h ⊢
          obtain ⟨hplace, hrest⟩ := List.forall_mem_cons.mp h
          -- The two scans may differ in their zones, which the search does not look at.
          obtain ⟨hlength, hclosed⟩ := Prod.mk.inj hplace
          dsimp only [Place.scan] at hlength hclosed
          rw [hlength, hclosed]
          by_cases hend : (scan inner (offset + opener.width)
              ((c :: t).drop opener.length)).closed = true
          · rw [if_pos hend] at hrest
            rw [if_pos hend, if_pos hend, ih hrest]
          · rw [if_neg hend, if_neg hend]

/-! ### The searches that a scan makes -/

/-- A search for the end of an expression. -/
structure Query where
  closer : Text
  literals : List Delimited
  host : Host
  offset : Nat
  text : Text
deriving Repr, DecidableEq

/-- What a search answers. -/
def Query.answer (find : CloserSearch) (q : Query) : Option Nat :=
  find q.closer q.literals q.host q.offset q.text

/-- The search that the first form makes which opens at the start of the text. A sigil makes
none. -/
def query? (host : Host) (offset : Nat) (t : Text) : List Interpolation → Option Query
  | [] => none
  | .braced opener closer grammar :: forms =>
    if opener.isPrefixOf t then
      some ⟨closer, if grammar.isNone then host.literals else [], host, offset + opener.width,
        t.drop opener.length⟩
    else query? host offset t forms
  | .sigil mark _ :: forms =>
    match t with
    | [] => none
    | c :: rest =>
      if c = mark && labelLength rest ≠ 0 then none else query? host offset t forms

theorem opening?_congr {find find' : CloserSearch} {host : Host} {offset : Nat} {t : Text}
    {forms : List Interpolation}
    (h : ∀ q ∈ query? host offset t forms, q.answer find' = q.answer find) :
    opening? (some find') host offset t forms = opening? (some find) host offset t forms := by
  induction forms with
  | nil => rfl
  | cons form forms ih =>
    cases form with
    | braced opener closer grammar =>
      rw [query?] at h
      rw [opening?, opening?]
      by_cases hopen : opener.isPrefixOf t = true
      · rw [if_pos hopen] at h
        have hanswer := h _ rfl
        dsimp only [Query.answer] at hanswer
        rw [if_pos hopen, if_pos hopen]
        dsimp only
        rw [hanswer]
      · rw [if_neg hopen] at h
        rw [if_neg hopen, if_neg hopen, ih h]
    | sigil mark grammar =>
      cases t with
      | nil => rfl
      | cons c rest =>
        rw [query?] at h
        rw [opening?, opening?]
        split
        · rfl
        next hmark =>
          rw [if_neg hmark] at h
          exact ih h

/-- The searches that are made in scanning a body. After an opening delimiter without its
closing one there are none. -/
def searched (find : CloserSearch) (host : Host) : (skip offset : Nat) → Text → List Query
  | _, _, [] => []
  | skip + 1, offset, c :: t => searched find host skip (offset + c.utf8Size) t
  | 0, offset, c :: t =>
    let next := offset + c.utf8Size
    match host.closingLength? (c :: t) with
    | some _ => []
    | none =>
      if host.escape = some c then searched find host 1 next t
      else if c = '\n' && !host.multiline then []
      else
        (query? host offset (c :: t) host.forms).toList ++
          match opening? (some find) host offset (c :: t) host.forms with
          | none => searched find host 0 next t
          | some (.zone z) => searched find host (z.length - 1) next t
          | some (.unmatched _) => []
          | some (.tooDeep opener) => searched find host (opener.length - 1) next t

/-- With no zones to come, nothing is searched. -/
theorem scanFrom_of_plain (search search' : Option CloserSearch) (host : Host)
    (skip offset : Nat) (t : Text) :
    scanFrom search host skip true offset t = scanFrom search' host skip true offset t := by
  induction t generalizing skip offset with
  | nil => cases skip <;> rfl
  | cons c t ih =>
    cases skip with
    | succ skip => rw [scanFrom, scanFrom, ih]
    | zero =>
      rw [scanFrom, scanFrom.eq_def search']
      dsimp only
      simp only [ih, if_true]

/-- **A scan uses the answers of the searches that it makes**, and nothing else of the way in
which they are made. -/
theorem scanFrom_congr {find find' : CloserSearch} {host : Host} {t : Text} {skip offset : Nat}
    (h : ∀ q ∈ searched find host skip offset t, q.answer find' = q.answer find) :
    scanFrom (some find') host skip false offset t =
      scanFrom (some find) host skip false offset t := by
  induction t generalizing skip offset with
  | nil => cases skip <;> rfl
  | cons c t ih =>
    cases skip with
    | succ skip =>
      rw [searched] at h
      rw [scanFrom, scanFrom, ih h]
    | zero =>
      rw [searched] at h
      rw [scanFrom, scanFrom.eq_def (some find)]
      dsimp only at h ⊢
      cases hclose : host.closingLength? (c :: t) with
      | some n => rfl
      | none =>
        rw [hclose] at h
        dsimp only at h ⊢
        by_cases hescape : host.escape = some c
        · rw [if_pos hescape] at h
          rw [if_pos hescape, if_pos hescape, ih h]
        rw [if_neg hescape] at h
        rw [if_neg hescape, if_neg hescape]
        by_cases hline : (c = '\n' && !host.multiline) = true
        · rw [if_pos hline, if_pos hline]
        rw [if_neg hline] at h
        rw [if_neg hline, if_neg hline, if_neg Bool.false_ne_true, if_neg Bool.false_ne_true]
        obtain ⟨hquery, hrest⟩ := List.forall_mem_append.mp h
        rw [opening?_congr fun q hq => hquery q (Option.mem_toList.mpr hq)]
        cases hopening : opening? (some find) host offset (c :: t) host.forms with
        | none =>
          rw [hopening] at hrest
          dsimp only at hrest ⊢
          rw [ih hrest]
        | some opening =>
          rw [hopening] at hrest
          cases opening with
          | zone z =>
            dsimp only at hrest ⊢
            rw [ih hrest]
          | unmatched opener =>
            dsimp only
            rw [scanFrom_of_plain (some find') (some find)]
          | tooDeep opener =>
            dsimp only at hrest ⊢
            rw [ih hrest]

/-! ### Down to the last level -/

/-- **The bodies that a scan leads to without any level left**: the body itself if there is
none, and otherwise those that its searches lead to, which skip literals with one level
less. -/
def exhausted : (budget : Nat) → Place → List Place
  | 0, p => [p]
  | budget + 1, p =>
    (searched (findCloser budget) p.host 0 p.offset p.text).flatMap fun q =>
      (skipped (scanBody budget) q.closer q.literals q.host 0 0 q.offset q.text).flatMap
        (exhausted budget)

/-- The searches are the same with one more level, if the bodies they skip have the same
extents. -/
theorem answer_findCloser_succ {budget : Nat} {q : Query}
    (h : ∀ p ∈ skipped (scanBody budget) q.closer q.literals q.host 0 0 q.offset q.text,
      (p.scan (scanBody (budget + 1))).extent = (p.scan (scanBody budget)).extent) :
    q.answer (findCloser (budget + 1)) = q.answer (findCloser budget) :=
  closerFrom_congr h

/-- **The extent of a body is the same with one more level**, if the bodies that the scan leads
to without any level are steady. -/
theorem extent_scanBody_succ {budget : Nat} {p : Place} (h : ∀ e ∈ exhausted budget p, e.Steady) :
    (p.scan (scanBody (budget + 1))).extent = (p.scan (scanBody budget)).extent := by
  induction budget generalizing p with
  | zero => exact (h p (List.mem_singleton.mpr rfl)).symm
  | succ budget ih =>
    rw [Place.scan, Place.scan, scanBody_succ, scanBody_succ]
    refine congrArg BodyScan.extent (scanFrom_congr fun q hq => ?_)
    refine answer_findCloser_succ fun place hplace => ih fun e he => ?_
    exact h e (List.mem_flatMap.mpr ⟨q, hq, List.mem_flatMap.mpr ⟨place, hplace, he⟩⟩)

/-- **While a level is left, the scan of a body is the same with one more**, zones and reports
included, if the bodies that it leads to without any level are steady. -/
theorem scanBody_succ_eq {budget : Nat} (hpos : 0 < budget) {p : Place}
    (h : ∀ e ∈ exhausted budget p, e.Steady) :
    p.scan (scanBody (budget + 1)) = p.scan (scanBody budget) := by
  obtain ⟨budget, rfl⟩ := Nat.exists_eq_add_one.mpr hpos
  rw [Place.scan, Place.scan, scanBody_succ, scanBody_succ]
  refine scanFrom_congr fun q hq => ?_
  refine answer_findCloser_succ fun place hplace => extent_scanBody_succ fun e he => ?_
  exact h e (List.mem_flatMap.mpr ⟨q, hq, List.mem_flatMap.mpr ⟨place, hplace, he⟩⟩)

end Polylex.Literal
