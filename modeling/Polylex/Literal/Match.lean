import Polylex.Literal.Body

/-!
# String-like literals

Matches a literal between delimiters (`Polylex.Literal.matchDelimited?`) or a heredoc
(`Polylex.Literal.matchHeredoc?`) at the start of a text. Both match as soon as their
beginning is there: a literal that never ends reaches to the end of the line or of the
text, and this is reported.
-/

namespace Polylex.Literal

/-- A literal at the start of a text: how many characters it has, its zones, and what there
is to report. -/
structure Found where
  length : Nat
  zones : List Zone := []
  diagnostics : List Diagnostic := []
deriving Repr, DecidableEq

/-! ### Delimited literals -/

/-- The report of a literal without its closing delimiter. -/
def unterminatedDiagnostic (spec : Delimited) (span : Span) : Diagnostic :=
  Diagnostic.new .unterminatedRegion
    ("unterminated literal, expected `" ++ String.ofList spec.closer ++ "`") span

/-- Matches a literal between delimiters. -/
def matchDelimited? (spec : Delimited) (literals : List Delimited) (budget offset : Nat)
    (t : Text) : Option Found :=
  if spec.opener.isPrefixOf t then
    let host := Host.ofDelimited spec offset literals
    let scan := scanBody budget host (offset + spec.opener.width) (t.drop spec.opener.length)
    let length := spec.opener.length + scan.length
    let missing :=
      if scan.closed then []
      else [unterminatedDiagnostic spec ⟨offset, offset + Text.width (t.take length)⟩]
    some ⟨length, scan.zones, scan.diagnostics ++ missing⟩
  else none

/-! ### Heredocs -/

/-- The line that introduces a heredoc. -/
structure HeredocHeader where
  /-- Whether the terminator may be indented. -/
  indented : Bool
  /-- The quote around the label. -/
  quote : Option Char
  label : Text
  /-- The number of characters up to and including the label and its quotes. -/
  length : Nat
deriving Repr, DecidableEq

/-- The quotes that may stand around a label. -/
def isLabelQuote (c : Char) : Bool := c == '\'' || c == '"' || c == '\x60'

/-- Reads the introducer, at most one flag, and a label that may stand in quotes. -/
def header? (spec : Heredoc) (t : Text) : Option HeredocHeader :=
  if spec.intro.isPrefixOf t then
    let t := t.drop spec.intro.length
    let indented := t.head?.any spec.flags.contains
    let t := if indented then t.drop 1 else t
    let quote := t.head?.filter isLabelQuote
    let t := t.drop quote.toList.length
    let n := labelLength t
    let closed := quote.all fun q => (t.drop n).head? == some q
    if n ≠ 0 && closed then
      some ⟨indented, quote, t.take n,
        spec.intro.length + (if indented then 1 else 0) + 2 * quote.toList.length + n⟩
    else none
  else none

/-- A line without the carriage returns at its end. -/
def trimReturns (line : Text) : Text := (line.reverse.dropWhile (· == '\r')).reverse

/-- The part of a line that is compared with a label. -/
def terminatorPart (indented : Bool) (line : Text) : Text :=
  let line := trimReturns line
  if indented then line.dropWhile Unicode.isBlank else line

/-- The first line that holds only the label: the number of characters before the line,
and up to the end of the label. `before` characters come before the lines. -/
def terminator? (label : Text) (indented : Bool) (before : Nat) : List Text → Option (Nat × Nat)
  | [] => none
  | line :: rest =>
    let part := terminatorPart indented line
    if part = label then
      some (before, before + ((trimReturns line).length - part.length) + label.length)
    else terminator? label indented (before + line.length + 1) rest

/-- The report of a heredoc without its terminator. -/
def unterminatedHeredocDiagnostic (label : Text) (span : Span) : Diagnostic :=
  Diagnostic.new .unterminatedRegion
    ("heredoc never reaches its `" ++ String.ofList label ++ "` terminator") span

/-- Scans the body of a heredoc for zones. A label in single quotes turns zones off. -/
def scanHeredocBody (spec : Heredoc) (header : HeredocHeader) (literals : List Delimited)
    (budget origin offset : Nat) (body : Text) : BodyScan :=
  if header.quote = some '\'' || spec.interpolations.isEmpty then {}
  else
    scanBody budget ⟨origin, none, none, spec.escape, true, spec.interpolations, literals⟩ offset
      body

/-- Matches a heredoc. Its body starts on the line after the introducer. -/
def matchHeredoc? (spec : Heredoc) (literals : List Delimited) (budget offset : Nat) (t : Text) :
    Option Found :=
  match header? spec t with
  | none => none
  | some header =>
    let stop := offset + t.width
    let missing := unterminatedHeredocDiagnostic header.label ⟨offset, stop⟩
    let lineLength := header.length + ((t.drop header.length).takeWhile (· != '\n')).length
    match t.drop lineLength with
    | [] => some ⟨t.length, [], [missing]⟩
    | _ :: body =>
      let bodyOffset := offset + Text.width (t.take (lineLength + 1))
      match terminator? header.label header.indented 0 (Text.lines body) with
      | some (before, through) =>
        let scan := scanHeredocBody spec header literals budget offset bodyOffset (body.take before)
        some ⟨lineLength + 1 + through, scan.zones, scan.diagnostics⟩
      | none =>
        let scan := scanHeredocBody spec header literals budget offset bodyOffset body
        some ⟨t.length, scan.zones, missing :: scan.diagnostics⟩

end Polylex.Literal
