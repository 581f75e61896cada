import Polylex.Literal.Zone
import Polylex.Diagnostic

/-!
# The body of a literal

Scans the body of a string-like literal for its end and for the zones inside it. A zone
ends at the closing delimiter that matches its opening one: brackets nest, and literals
inside the expression are skipped whole. Finding that delimiter therefore scans the bodies
of literals one level further down.

The two loops are written apart, each with the other as a parameter:

* `Polylex.Literal.scanFrom` goes through a body, and asks a `Polylex.Literal.CloserSearch`
  where a zone ends;
* `Polylex.Literal.closerFrom` goes through an expression, and asks a
  `Polylex.Literal.BodyScanner` where a literal ends.

`Polylex.Literal.scanBody` ties them together by recursion on the budget, the number of
levels of embedding that are still allowed. A body without budget has no zones, and an
expression is searched with one less than the literal around it.

Both loops are structural on the text. What is read in one go, such as a zone or a skipped
literal, is passed over one character at a time, counted down by `skip`.
-/

namespace Polylex.Literal

/-- The literal that is scanned. A heredoc has no delimiters. -/
structure Host where
  /-- The offset at which the literal starts. -/
  origin : Nat
  opener : Option Text
  closer : Option Text
  escape : Option Char
  multiline : Bool
  forms : List Interpolation
  /-- The literals of the grammar around it, which expressions in that grammar may hold. -/
  literals : List Delimited
deriving Repr, DecidableEq

namespace Host

/-- A literal between delimiters that starts at an offset. -/
def ofDelimited (spec : Delimited) (origin : Nat) (literals : List Delimited) : Host :=
  ⟨origin, some spec.opener, some spec.closer, spec.escape, spec.multiline, spec.interpolations,
    literals⟩

/-- The length of the closing delimiter, if the literal ends at the start of the text. -/
def closingLength? (h : Host) (t : Text) : Option Nat :=
  match h.closer with
  | some closer => if closer.isPrefixOf t then some closer.length else none
  | none => none

end Host

/-- The outcome of scanning a body: how many characters belong to it, with the closing
delimiter if there is one; its zones; and what there is to report. -/
structure BodyScan where
  length : Nat := 0
  closed : Bool := false
  zones : List Zone := []
  diagnostics : List Diagnostic := []
deriving Repr, DecidableEq

namespace BodyScan

/-- One more character in front. -/
def later (s : BodyScan) : BodyScan := { s with length := s.length + 1 }

/-- One more zone in front. -/
def addZone (s : BodyScan) (z : Zone) : BodyScan := { s with zones := z :: s.zones }

/-- One more report in front. -/
def addDiagnostic (s : BodyScan) (d : Diagnostic) : BodyScan :=
  { s with diagnostics := d :: s.diagnostics }

end BodyScan

/-- Finds the end of an expression: given the closing delimiter, the literals the
expression may hold, the literal around it and the offset of the expression, the number of
characters before the closing delimiter. -/
abbrev CloserSearch :=
  (closer : Text) → (literals : List Delimited) → (host : Host) → (offset : Nat) → Text → Option Nat

/-- Scans the body of a literal that starts at an offset. -/
abbrev BodyScanner := (host : Host) → (offset : Nat) → Text → BodyScan

/-! ### Opening a zone -/

/-- What an opening delimiter in a body leads to. -/
inductive Opening where
  | zone (z : Zone)
  /-- There is no closing delimiter. -/
  | unmatched (opener : Text)
  /-- The budget is used up. -/
  | tooDeep (opener : Text)
deriving Repr, DecidableEq

/-- What the first form that opens at the start of the text leads to. Without a search the
budget is used up. A sigil opens only before a label. -/
def opening? (search : Option CloserSearch) (host : Host) (offset : Nat) (t : Text) :
    List Interpolation → Option Opening
  | [] => none
  | .braced opener closer grammar :: forms =>
    if opener.isPrefixOf t then
      match search with
      | none => some (.tooDeep opener)
      | some search =>
        let rest := t.drop opener.length
        let literals := if grammar.isNone then host.literals else []
        match search closer literals host (offset + opener.width) rest with
        | some n => some (.zone ⟨offset, opener, rest.take n, closer, grammar⟩)
        | none => some (.unmatched opener)
    else opening? search host offset t forms
  | .sigil mark grammar :: forms =>
    match t with
    | [] => none
    | c :: rest =>
      let n := labelLength rest
      if c = mark && n ≠ 0 then
        match search with
        | none => some (.tooDeep [mark])
        | some _ => some (.zone ⟨offset, [mark], rest.take n, [], grammar⟩)
      else opening? search host offset t forms

/-! ### Scanning a body -/

/-- The report of an opening delimiter without its closing one. -/
def unmatchedDiagnostic (host : Host) (offset : Nat) (opener : Text) : Diagnostic :=
  (Diagnostic.new .unmatchedInterpolationCloser
      DiagnosticCode.unmatchedInterpolationCloser.defaultMessage
      ⟨offset, offset + opener.width⟩).withRelated
    "literal starts here" (Span.point host.origin)

/-- The report of an opening delimiter beyond the limit. -/
def tooDeepDiagnostic (offset : Nat) (opener : Text) : Diagnostic :=
  Diagnostic.new .nestingLimit "interpolation nested too deeply; kept as plain text"
    ⟨offset, offset + opener.width⟩

/-- Scans a body. `plain` says that an opening delimiter was unmatched, from which on there
are no more zones. -/
def scanFrom (search : Option CloserSearch) (host : Host) :
    (skip : Nat) → (plain : Bool) → (offset : Nat) → Text → BodyScan
  | _, _, _, [] => {}
  | skip + 1, plain, offset, c :: t =>
    (scanFrom search host skip plain (offset + c.utf8Size) t).later
  | 0, plain, offset, c :: t =>
    let next := offset + c.utf8Size
    match host.closingLength? (c :: t) with
    | some n => { length := n, closed := true }
    | none =>
      if host.escape = some c then (scanFrom search host 1 plain next t).later
      else if c = '\n' && !host.multiline then {}
      else
        match if plain then none else opening? search host offset (c :: t) host.forms with
        | none => (scanFrom search host 0 plain next t).later
        | some (.zone z) =>
          (scanFrom search host (z.length - 1) plain next t).later.addZone z
        | some (.unmatched opener) =>
          (scanFrom search host (opener.length - 1) true next t).later.addDiagnostic
            (unmatchedDiagnostic host offset opener)
        | some (.tooDeep opener) =>
          (scanFrom search host (opener.length - 1) plain next t).later.addDiagnostic
            (tooDeepDiagnostic offset opener)

/-! ### Finding the end of an expression -/

/-- The bracket whose partner begins a closing delimiter. -/
def openingBracket? : Text → Option Char
  | '\x7d' :: _ => some '\x7b'
  | ')' :: _ => some '('
  | ']' :: _ => some '['
  | '>' :: _ => some '<'
  | _ => none

/-- The literal that starts at the start of the text, and its opening delimiter: the first
of the literals the expression may hold, or else one like the literal around it. -/
def nestedLiteral? (literals : List Delimited) (host : Host) (offset : Nat) (t : Text) :
    Option (Host × Text) :=
  match literals.find? (·.opener.isPrefixOf t) with
  | some spec => some (Host.ofDelimited spec offset literals, spec.opener)
  | none =>
    match host.opener with
    | some opener =>
      if opener.isPrefixOf t then some ({ host with origin := offset }, opener) else none
    | none => none

/-- Searches the end of an expression: the number of characters before the closing
delimiter that has no partner. `depth` brackets are open. A literal without end fails the
search. -/
def closerFrom (scan : BodyScanner) (closer : Text) (literals : List Delimited) (host : Host) :
    (skip depth offset : Nat) → Text → Option Nat
  | _, _, _, [] => none
  | skip + 1, depth, offset, c :: t =>
    (closerFrom scan closer literals host skip depth (offset + c.utf8Size) t).map (· + 1)
  | 0, depth, offset, c :: t =>
    let next := offset + c.utf8Size
    if closer.isPrefixOf (c :: t) then
      match depth with
      | 0 => some 0
      | depth + 1 =>
        (closerFrom scan closer literals host (closer.length - 1) depth next t).map (· + 1)
    else
      match nestedLiteral? literals host offset (c :: t) with
      | some (inner, opener) =>
        let body := scan inner (offset + opener.width) ((c :: t).drop opener.length)
        if body.closed then
          (closerFrom scan closer literals host (opener.length + body.length - 1) depth next t).map
            (· + 1)
        else none
      | none =>
        let depth := if openingBracket? closer = some c then depth + 1 else depth
        (closerFrom scan closer literals host 0 depth next t).map (· + 1)

/-- Scans the body of a literal that starts at an offset, with a budget of levels of
embedding. -/
def scanBody : (budget : Nat) → BodyScanner
  | 0, host, offset, t => scanFrom none host 0 false offset t
  | budget + 1, host, offset, t =>
    scanFrom
      (some fun closer literals host offset t =>
        closerFrom (scanBody budget) closer literals host 0 0 offset t)
      host 0 false offset t

/-- Searches the end of an expression inside a literal, with the budget of the
expression. -/
def findCloser (budget : Nat) : CloserSearch := fun closer literals host offset t =>
  closerFrom (scanBody budget) closer literals host 0 0 offset t

theorem scanBody_zero (host : Host) (offset : Nat) (t : Text) :
    scanBody 0 host offset t = scanFrom none host 0 false offset t := rfl

theorem scanBody_succ (budget : Nat) (host : Host) (offset : Nat) (t : Text) :
    scanBody (budget + 1) host offset t =
      scanFrom (some (findCloser budget)) host 0 false offset t := rfl

end Polylex.Literal
