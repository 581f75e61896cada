import Polylex.Proofs.Shift
import Polylex.Scanner

/-!
# Matching does not depend on the offset

A match at the start of a text is given the offset of the text, and uses it for nothing but
the places it writes down. Here this is proved from the inside out: the scan of a body
(`Polylex.Literal.scanFrom_shift`) moves along if the search for the end of an expression
does not see the offset, and that search (`Polylex.Literal.closerFrom_shift`) does not see
it if the scan of a body moves along. By induction on the budget both hold
(`Polylex.Literal.scanBody_shift`), and so every match moves along with its text
(`Polylex.Grammar.firstMatch_shift`).
-/

namespace Polylex

/-! ### Moving what is found -/

section

variable (k : Nat)

namespace Literal

/-- The literal, moved by some bytes. -/
def Host.shift (h : Host) : Host := { h with origin := h.origin + k }

/-- The scan with its zones and reports moved by some bytes. -/
def BodyScan.shift (s : BodyScan) : BodyScan :=
  { s with zones := s.zones.map (·.shift k), diagnostics := s.diagnostics.map (·.shift k) }

/-- What an opening delimiter leads to, moved by some bytes. -/
def Opening.shift : Opening → Opening
  | .zone z => .zone (z.shift k)
  | .unmatched opener => .unmatched opener
  | .tooDeep opener => .tooDeep opener

/-- The literal that has been found, with its zones and reports moved by some bytes. -/
def Found.shift (f : Found) : Found :=
  { f with zones := f.zones.map (·.shift k), diagnostics := f.diagnostics.map (·.shift k) }

end Literal

/-- The match with its zones and reports moved by some bytes. -/
def Match.shift (m : Match) : Match :=
  { m with zones := m.zones.map (·.shift k), diagnostics := m.diagnostics.map (·.shift k) }

/-- The token as the scanner finds it, moved by some bytes. -/
def RawToken.shift (raw : RawToken) : RawToken :=
  { raw with span := raw.span.shift k, zones := raw.zones.map (·.shift k) }

end

variable {k budget offset : Nat} {t : Text}

namespace Literal

@[simp] theorem BodyScan.shift_later (s : BodyScan) :
    s.later.shift k = (s.shift k).later := rfl

@[simp] theorem BodyScan.shift_addZone (s : BodyScan) (z : Zone) :
    (s.addZone z).shift k = (s.shift k).addZone (z.shift k) := rfl

@[simp] theorem BodyScan.shift_addDiagnostic (s : BodyScan) (d : Diagnostic) :
    (s.addDiagnostic d).shift k = (s.shift k).addDiagnostic (d.shift k) := rfl

theorem unmatchedDiagnostic_shift (host : Host) (offset : Nat) (opener : Text) :
    unmatchedDiagnostic (host.shift k) (offset + k) opener =
      (unmatchedDiagnostic host offset opener).shift k := by
  rw [unmatchedDiagnostic, unmatchedDiagnostic, Span.mk_shift]
  rfl

theorem tooDeepDiagnostic_shift (offset : Nat) (opener : Text) :
    tooDeepDiagnostic (offset + k) opener = (tooDeepDiagnostic offset opener).shift k := by
  rw [tooDeepDiagnostic, tooDeepDiagnostic, Span.mk_shift]
  rfl

/-! ### The two loops -/

/-- A search for the end of an expression that does not see where the expression is. -/
def CloserSearch.Local (find : CloserSearch) : Prop :=
  ∀ k closer literals host offset t,
    find closer literals (host.shift k) (offset + k) t = find closer literals host offset t

/-- A scanner of bodies whose results move along with the body. -/
def BodyScanner.Local (scan : BodyScanner) : Prop :=
  ∀ k host offset t, scan (host.shift k) (offset + k) t = (scan host offset t).shift k

theorem opening?_shift {search : Option CloserSearch}
    (hsearch : ∀ find ∈ search, CloserSearch.Local find) (host : Host) (offset : Nat) (t : Text)
    (forms : List Interpolation) :
    opening? search (host.shift k) (offset + k) t forms =
      (opening? search host offset t forms).map (Opening.shift k) := by
  induction forms with
  | nil => rfl
  | cons form forms ih =>
    cases form with
    | braced opener closer g =>
      rw [opening?.eq_def, opening?.eq_def search host]
      dsimp only
      by_cases hopen : opener.isPrefixOf t = true
      · rw [if_pos hopen, if_pos hopen]
        cases search with
        | none => rfl
        | some find =>
          have hfind := hsearch find rfl k closer
            (if g.isNone then host.literals else []) host (offset + opener.width)
            (t.drop opener.length)
          have hliterals : (host.shift k).literals = host.literals := rfl
          dsimp only
          rw [Nat.add_right_comm offset k, hliterals, hfind]
          split <;> rfl
      · rw [if_neg hopen, if_neg hopen, ih]
    | sigil mark g =>
      cases t with
      | nil => rfl
      | cons c t =>
        rw [opening?.eq_def, opening?.eq_def search host]
        dsimp only
        split
        · cases search <;> rfl
        · exact ih

/-- **The scan of a body moves along with the body.** -/
theorem scanFrom_shift {search : Option CloserSearch}
    (hsearch : ∀ find ∈ search, CloserSearch.Local find) (host : Host) (skip : Nat) (plain : Bool)
    (offset : Nat) (t : Text) :
    scanFrom search (host.shift k) skip plain (offset + k) t =
      (scanFrom search host skip plain offset t).shift k := by
  induction t generalizing skip plain offset with
  | nil => cases skip <;> rfl
  | cons c t ih =>
    cases skip with
    | succ skip => rw [scanFrom, scanFrom, Nat.add_right_comm, ih, BodyScan.shift_later]
    | zero =>
      -- The text alone says whether the body ends here or the character is escaped; the
      -- offset goes into the zone that opens.
      have hclose : (host.shift k).closingLength? (c :: t) = host.closingLength? (c :: t) := rfl
      have hopening : (if plain then none
            else opening? search (host.shift k) (offset + k) (c :: t) (host.shift k).forms) =
          (if plain then none else opening? search host offset (c :: t) host.forms).map
            (Opening.shift k) := by
        cases plain
        · exact opening?_shift hsearch host offset (c :: t) host.forms
        · rfl
      have hescape : (host.shift k).escape = host.escape := rfl
      have hmultiline : (host.shift k).multiline = host.multiline := rfl
      rw [scanFrom, scanFrom, hclose, hopening, hescape, hmultiline, Nat.add_right_comm offset k]
      split
      · rfl
      split
      · exact congrArg BodyScan.later (ih 1 plain _)
      split
      · rfl
      cases if plain then none else opening? search host offset (c :: t) host.forms with
      | none => exact congrArg BodyScan.later (ih 0 plain _)
      | some o =>
        cases o with
        | zone z =>
          simp only [Option.map_some, Opening.shift, Zone.length_shift, ih, BodyScan.shift_addZone,
            BodyScan.shift_later]
        | unmatched opener =>
          simp only [Option.map_some, Opening.shift, ih, BodyScan.shift_addDiagnostic,
            BodyScan.shift_later, unmatchedDiagnostic_shift]
        | tooDeep opener =>
          simp only [Option.map_some, Opening.shift, ih, BodyScan.shift_addDiagnostic,
            BodyScan.shift_later, tooDeepDiagnostic_shift]

theorem nestedLiteral?_shift (literals : List Delimited) (host : Host) (offset : Nat) (t : Text) :
    nestedLiteral? literals (host.shift k) (offset + k) t =
      (nestedLiteral? literals host offset t).map fun (inner, opener) =>
        (inner.shift k, opener) := by
  have hopener : (host.shift k).opener = host.opener := rfl
  rw [nestedLiteral?, nestedLiteral?, hopener]
  cases literals.find? (·.opener.isPrefixOf t) with
  | some spec => rfl
  | none =>
    cases host.opener with
    | none => rfl
    | some opener =>
      dsimp only
      split <;> rfl

/-- **The search for the end of an expression does not see where the expression is.** -/
theorem closerFrom_shift {scan : BodyScanner} (hscan : scan.Local) (closer : Text)
    (literals : List Delimited) (host : Host) (skip depth offset : Nat) (t : Text) :
    closerFrom scan closer literals (host.shift k) skip depth (offset + k) t =
      closerFrom scan closer literals host skip depth offset t := by
  induction t generalizing skip depth offset with
  | nil => cases skip <;> rfl
  | cons c t ih =>
    cases skip with
    | succ skip => rw [closerFrom, closerFrom, Nat.add_right_comm, ih]
    | zero =>
      rw [closerFrom.eq_def, closerFrom.eq_def scan closer literals host]
      dsimp only
      rw [nestedLiteral?_shift, Nat.add_right_comm offset k]
      simp only [ih]
      cases nestedLiteral? literals host offset (c :: t) with
      | none => rfl
      | some inner =>
        -- The search reads the length of the skipped literal and whether it ends, and both
        -- are left alone by a shift.
        obtain ⟨inner, opener⟩ := inner
        dsimp only [Option.map_some]
        rw [Nat.add_right_comm offset k, hscan]
        rfl

/-- **Bodies are scanned wherever they are**, for every budget. -/
theorem scanBody_shift (budget : Nat) : BodyScanner.Local (scanBody budget) := by
  induction budget with
  | zero =>
    intro k host offset t
    exact scanFrom_shift (by simp) host 0 false offset t
  | succ budget ih =>
    intro k host offset t
    have hlocal : ∀ find ∈ some (findCloser budget), CloserSearch.Local find := by
      rintro find ⟨⟩ k closer literals host offset t
      exact closerFrom_shift ih closer literals host 0 0 offset t
    exact scanFrom_shift hlocal host 0 false offset t

/-! ### Literals -/

theorem matchDelimited?_shift (spec : Delimited) (literals : List Delimited) (budget offset : Nat)
    (t : Text) :
    matchDelimited? spec literals budget (offset + k) t =
      (matchDelimited? spec literals budget offset t).map (Found.shift k) := by
  have hhost : Host.ofDelimited spec (offset + k) literals =
      (Host.ofDelimited spec offset literals).shift k := rfl
  rw [matchDelimited?, matchDelimited?]
  dsimp only
  split
  next =>
    rw [hhost, Nat.add_right_comm offset k, scanBody_shift budget k]
    generalize scanBody budget (Host.ofDelimited spec offset literals)
      (offset + spec.opener.width) (t.drop spec.opener.length) = scan
    rw [Span.mk_shift]
    obtain ⟨length, closed, zones, ds⟩ := scan
    simp only [BodyScan.shift, Option.map_some, Found.shift, List.map_append]
    cases closed <;> rfl
  next => rfl

theorem scanHeredocBody_shift (spec : Heredoc) (header : HeredocHeader)
    (literals : List Delimited) (budget origin offset : Nat) (body : Text) :
    scanHeredocBody spec header literals budget (origin + k) (offset + k) body =
      (scanHeredocBody spec header literals budget origin offset body).shift k := by
  rw [scanHeredocBody, scanHeredocBody]
  split
  · rfl
  · exact scanBody_shift budget k
      ⟨origin, none, none, spec.escape, true, spec.interpolations, literals⟩ offset body

theorem matchHeredoc?_shift (spec : Heredoc) (literals : List Delimited) (budget offset : Nat)
    (t : Text) :
    matchHeredoc? spec literals budget (offset + k) t =
      (matchHeredoc? spec literals budget offset t).map (Found.shift k) := by
  rw [matchHeredoc?, matchHeredoc?]
  cases header? spec t with
  | none => rfl
  | some header =>
    dsimp only
    rw [Span.mk_shift, Nat.add_right_comm offset k]
    split
    · rfl
    · simp only [scanHeredocBody_shift]
      split <;> rfl

end Literal

/-! ### Matches -/

theorem Matcher.match?_shift (m : Matcher) (literals : List Delimited) (budget offset : Nat)
    (t : Text) :
    m.match? literals budget (offset + k) t =
      (m.match? literals budget offset t).map (Literal.Found.shift k) := by
  cases m with
  | literal text =>
    rw [match?_literal, match?_literal]
    split <;> rfl
  | keyword text =>
    rw [match?_keyword, match?_keyword]
    split <;> rfl
  | chars cls repeats =>
    rw [match?_chars, match?_chars, Option.map_map]
    rfl
  | pattern p =>
    rw [match?_pattern, match?_pattern, Option.map_map]
    rfl
  | delimited spec => exact Literal.matchDelimited?_shift spec literals budget offset t
  | heredoc spec => exact Literal.matchHeredoc?_shift spec literals budget offset t

theorem Rule.match?_shift (r : Rule) (index : Nat) (literals : List Delimited)
    (budget offset : Nat) (t : Text) :
    r.match? index literals budget (offset + k) t =
      (r.match? index literals budget offset t).map (Match.shift k) := by
  rw [match?_eq, match?_eq, Matcher.match?_shift]
  cases r.matcher.match? literals budget offset t with
  | none => rfl
  | some found =>
    dsimp only [Option.map_some, Literal.Found.shift]
    split <;> rfl

namespace Grammar

theorem firstOf_shift (literals : List Delimited) (budget offset : Nat) (t : Text) (index : Nat)
    (rules : List Rule) :
    firstOf literals budget (offset + k) t index rules =
      (firstOf literals budget offset t index rules).map (Match.shift k) := by
  induction rules generalizing index with
  | nil => rfl
  | cons r rest ih =>
    rw [firstOf_cons, firstOf_cons, Rule.match?_shift]
    cases r.match? index literals budget offset t with
    | none => exact ih (index + 1)
    | some found => rfl

/-- **The token at the start of a text moves along with the text.** -/
theorem firstMatch_shift (g : Grammar) (budget offset : Nat) (t : Text) :
    g.firstMatch budget (offset + k) t = (g.firstMatch budget offset t).shift k := by
  rw [firstMatch_eq, firstMatch_eq, firstOf_shift]
  cases firstOf g.literals budget offset t 0 g.rules <;> rfl

end Grammar

theorem RawToken.ofMatch_shift (m : Match) (offset : Nat) (t : Text) :
    ofMatch (m.shift k) (offset + k) t = (ofMatch m offset t).shift k := by
  rw [ofMatch, ofMatch, Span.mk_shift]
  rfl

end Polylex
