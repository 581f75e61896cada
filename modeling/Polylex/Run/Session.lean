import Polylex.Diagnostic
import Polylex.Grammar.Set
import Polylex.Region.Stack
import Polylex.Run.Options
import Polylex.Token.Coverage

/-!
# Sessions

A `Polylex.Session` runs any number of texts over one set of grammars and collects what they
report. It may carry a cancellation signal, which stops runs over whole documents.

What is done in a session is a `Polylex.SessionM`: it goes on with the session as it finds it and
leaves it with more reports, and it may fail. What has been reported before a failure stays
reported.
-/

namespace Polylex

/-- Why a text is not tokenized. -/
inductive TokenizeError where
  | unknownGrammar (id : String)
  /-- The open regions are not as they should be. -/
  | region (e : RegionError)
  | coverage (e : CoverageError)
  | cancelled
  /-- The strict policy met a diagnostic. -/
  | rejected (d : Diagnostic)
deriving Repr, DecidableEq

namespace TokenizeError

/-- The error in words. -/
def message : TokenizeError → String
  | unknownGrammar id => s!"unknown grammar `{id}`"
  | region e => e.message
  | coverage e => "token stream violates coverage: " ++ e.message
  | cancelled => "tokenization cancelled"
  | rejected d => "rejected under strict policy: " ++ d.summary

end TokenizeError

/-- A set of grammars, options, a cancellation signal if there is one, and everything
reported so far. -/
structure Session where
  grammars : GrammarSet
  options : TokenizeOptions := {}
  signal : Option Bool := none
  diagnostics : List Diagnostic := []

namespace Session

/-- Whether the signal has been given. -/
def isCancelled (s : Session) : Bool := s.signal.getD false

/-- Gives the cancellation signal, if the session carries one. -/
def cancel (s : Session) : Session := { s with signal := s.signal.map fun _ => true }

/-- The grammar of a name. -/
def grammar (s : Session) (id : String) : Except TokenizeError Grammar :=
  match s.grammars.get? id with
  | some g => .ok g
  | none => .error (.unknownGrammar id)

theorem grammar_eq_ok {s : Session} {id : String} {g : Grammar} (h : s.grammars.get? id = some g) :
    s.grammar id = .ok g := by
  rw [grammar, h]

theorem grammar_eq_error {s : Session} {id : String} (h : s.grammars.get? id = none) :
    s.grammar id = .error (.unknownGrammar id) := by
  rw [grammar, h]

end Session

/-- What is done in a session. -/
abbrev SessionM := ExceptT TokenizeError (StateM Session)

namespace SessionM

/-- Adds to what has been reported. -/
def report (ds : List Diagnostic) : SessionM Unit :=
  modify fun s => { s with diagnostics := s.diagnostics ++ ds }

/-- The grammar of a name. -/
def lookup (id : String) : SessionM Grammar := do
  match (← get).grammar id with
  | .ok g => pure g
  | .error e => throw e

/-- Fails if the signal has been given. -/
def checkSignal : SessionM Unit := do
  if (← get).isCancelled then throw .cancelled

end SessionM

end Polylex
