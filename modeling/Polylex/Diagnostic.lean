import Polylex.Text.LineIndex

/-!
# Diagnostics

Tokenization never fails on a text it cannot make sense of; it goes on and reports what it
found. A `Polylex.Diagnostic` has a code, a severity, a message and the span it is about,
and may point to related places. A `Polylex.Diagnostic.Draft` collects the parts of one.

`Polylex.Diagnostic.summary` writes a diagnostic without its place,
`Polylex.Diagnostic.render` with line and column.
-/

namespace Polylex

/-- How serious a diagnostic is. -/
inductive Severity where
  | error
  | warning
  | hint
deriving Repr, DecidableEq

namespace Severity

/-- The word a rendered diagnostic uses. -/
def name : Severity → String
  | error => "error"
  | warning => "warning"
  | hint => "hint"

end Severity

/-- The conditions that tokenization reports. -/
inductive DiagnosticCode where
  | unterminatedRegion
  | recursiveRegion
  | unmatchedInterpolationCloser
  | nestingLimit
deriving Repr, DecidableEq

namespace DiagnosticCode

/-- The short form: `R01` for regions, `R02` for interpolations. -/
def label : DiagnosticCode → String
  | unterminatedRegion => "R0101"
  | recursiveRegion => "R0102"
  | unmatchedInterpolationCloser => "R0201"
  | nestingLimit => "R0202"

/-- The message of a diagnostic that gives none of its own. -/
def defaultMessage : DiagnosticCode → String
  | unterminatedRegion => "unterminated region"
  | recursiveRegion => "grammar is already active and not re-entrant"
  | unmatchedInterpolationCloser => "interpolation has no matching closer"
  | nestingLimit => "nesting limit reached"

/-- The group the code belongs to. -/
def category : DiagnosticCode → String
  | unterminatedRegion | recursiveRegion => "region error"
  | unmatchedInterpolationCloser | nestingLimit => "interpolation error"

/-- Every condition is a warning: the text is tokenized all the same. -/
def defaultSeverity (_ : DiagnosticCode) : Severity := .warning

end DiagnosticCode

/-- A place that helps to understand a diagnostic. -/
structure Related where
  message : String
  span : Span
deriving Repr, DecidableEq

/-- A report about a span of the text. -/
structure Diagnostic where
  code : DiagnosticCode
  severity : Severity
  message : String
  span : Span
  related : List Related
deriving Repr, DecidableEq

namespace Diagnostic

/-- A diagnostic with the severity of its code and no related places. -/
def new (code : DiagnosticCode) (message : String) (span : Span) : Diagnostic :=
  ⟨code, code.defaultSeverity, message, span, []⟩

/-- A diagnostic about a single offset. -/
def atOffset (code : DiagnosticCode) (message : String) (offset : Nat) : Diagnostic :=
  new code message (Span.point offset)

/-- The diagnostic with another severity. -/
def withSeverity (d : Diagnostic) (severity : Severity) : Diagnostic := { d with severity }

/-- The diagnostic with one more related place. -/
def withRelated (d : Diagnostic) (message : String) (span : Span) : Diagnostic :=
  { d with related := d.related ++ [⟨message, span⟩] }

/-- Whether there are related places. -/
def hasRelated (d : Diagnostic) : Bool := !d.related.isEmpty

/-- The code and the message. -/
def summary (d : Diagnostic) : String := d.code.label ++ ": " ++ d.message

/-- A position as it is shown: line and column, counted from one. -/
def showPosition (p : Position) : String := toString (p.line + 1) ++ ":" ++ toString (p.column + 1)

/-- The diagnostic with line and column, followed by a line for every related place. -/
def render (d : Diagnostic) (index : LineIndex) : String :=
  let head := showPosition (index.position d.span.start) ++ ": " ++ d.severity.name ++ " " ++
    d.summary
  d.related.foldl
    (fun text r =>
      text ++ "\n  " ++ showPosition (index.position r.span.start) ++ ": " ++ r.message)
    head

/-- The parts of a diagnostic to be: what is left out takes its default. -/
structure Draft where
  code : DiagnosticCode
  message : Option String := none
  span : Option Span := none
  severity : Severity := code.defaultSeverity
  related : List Related := []
deriving Repr

namespace Draft

/-- The finished diagnostic: without a message it has that of its code, without a span it
is about the start of the text. -/
def build (d : Draft) : Diagnostic :=
  ⟨d.code, d.severity, d.message.getD d.code.defaultMessage, d.span.getD (Span.point 0), d.related⟩

end Draft

end Diagnostic

end Polylex
