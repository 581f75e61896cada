import Polylex.Run.Dispatch

/-!
# Tokenizing texts

The entry point of the library. A `Polylex.Tokenizer` is a set of grammars with options;
`Polylex.Tokenizer.tokenize` runs a text, merges and checks its tokens, and applies the
policy.
-/

namespace Polylex

/-- The tokens of a text and what there is to report. -/
structure Tokenized where
  stream : TokenStream
  diagnostics : List Diagnostic
deriving Repr

namespace Tokenized

/-- Whether there is a warning. -/
def hasWarnings (r : Tokenized) : Bool := r.diagnostics.any (·.severity == .warning)

/-- The diagnostics with line and column, one below the other. -/
def renderDiagnostics (r : Tokenized) (t : Text) : String :=
  "\n".intercalate (r.diagnostics.map (·.render (LineIndex.ofText t)))

end Tokenized

/-- A set of grammars with options. -/
structure Tokenizer where
  grammars : GrammarSet
  options : TokenizeOptions := {}

namespace Tokenizer

/-- Merges and checks tokens, and applies the policy: the strict one fails with the first
diagnostic. -/
def finish (o : TokenizeOptions) (width : Nat) (tokens : List Token)
    (diagnostics : List Diagnostic) : Except TokenizeError Tokenized :=
  match TokenStream.ofTokens tokens width o.mergeAdjacent with
  | .error e => .error (.coverage e)
  | .ok stream =>
    match o.isStrict, diagnostics with
    | true, d :: _ => .error (.rejected d)
    | _, _ => .ok ⟨stream, diagnostics⟩

/-- Tokenizes a text with a root grammar, under a cancellation signal if there is one. -/
def tokenizeUnder (k : Tokenizer) (signal : Option Bool) (t : Text) (root : String) :
    Except TokenizeError Tokenized :=
  let session : Session := { grammars := k.grammars, options := k.options, signal }
  match session.run t root with
  | (.error e, _) => .error e
  | (.ok tokens, session) => finish k.options t.width tokens session.diagnostics

/-- Tokenizes a text with a root grammar. -/
def tokenize (k : Tokenizer) (t : Text) (root : String) : Except TokenizeError Tokenized :=
  k.tokenizeUnder none t root

/-- Tokenizes several texts, each with a root grammar of its own. -/
def tokenizeAll (k : Tokenizer) (inputs : List (String × Text)) :
    List (Except TokenizeError Tokenized) :=
  inputs.map fun (root, t) => k.tokenize t root

end Tokenizer

end Polylex
