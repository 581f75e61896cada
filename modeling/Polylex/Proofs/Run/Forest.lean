import Polylex.Proofs.Run.Trace
import Polylex.Run.Dispatch

/-!
# What a run returns and reports

A run goes on with the session that it finds, and with the text in front of the place that it has
reached. Here the same is written without either: as a function of the set of grammars, of the
limits, of the offset of a place and of the text that is left there, with the reports as part of
the value. Most that is said about runs is said in this form; that a run does what it says is shown
in `Polylex.Session.runRange_eq`.

* `Polylex.Run.act` applies the action of a rule to the open regions;
* `Polylex.Run.splice` makes the tree of a token with zones;
* `Polylex.Run.forestFrom` goes through a text token by token, one character at a time, and takes
  each token from the grammar that is in force there;
* `Polylex.Run.forest` ties them together by recursion on the budget, the number of levels
  of embedding that are still allowed: the expression of a zone is a text of its own, with
  its own regions and one level less;
* `Polylex.Session.trace` is what a run over a span returns and reports in a session.
-/

namespace Polylex

namespace Run

/-! ### Regions -/

/-- The grammar of a name. -/
def lookup (grammars : GrammarSet) (id : String) : Traced Grammar :=
  match grammars.get? id with
  | some g => .value g
  | none => .fail (.unknownGrammar id)

/-- Enters the region of a grammar after the token that opens it. A refusal is reported and
changes nothing. -/
def enter (grammars : GrammarSet) (stack : RegionStack) (id : String) (opener : Span) :
    Traced RegionStack := do
  let grammar ← lookup grammars id
  match stack.push grammar opener.stop opener with
  | .ok stack => pure stack
  | .error (.recursive id) =>
    Traced.report [recursiveDiagnostic id stack.current.id opener]
    pure stack
  | .error (.depthLimit limit) =>
    Traced.report [depthLimitDiagnostic limit id opener]
    pure stack
  | .error e => .fail (.region e)

/-- Leaves the innermost region, unless it is the root. -/
def leave (stack : RegionStack) (offset : Nat) : RegionStack :=
  match stack.pop offset with
  | .ok (_, stack) => stack
  | .error _ => stack

/-- Applies the action of a rule after its token. -/
def act (grammars : GrammarSet) (stack : RegionStack) (token : Span) :
    Option RegionAction → Traced RegionStack
  | none => pure stack
  | some (.enter id) => enter grammars stack id token
  | some .exit => pure (leave stack token.stop)
  | some (.switch id) => enter grammars (leave stack token.stop) id token

/-- Reports the regions that are open at the end of the text, innermost first. -/
def closeOut (stack : RegionStack) (stop : Nat) : Traced Unit :=
  .report ((stack.closeAll stop).1.map (unclosedDiagnostic stop))

/-! ### Zones -/

/-- Tokenizes the expression of a zone that starts at an offset, with a grammar. -/
abbrev Embedded := (root : Grammar) → (offset : Nat) → Text → Traced (List Token)

/-- The tokens of the expression of a zone. Without a grammar of its own it is in the
grammar of the literal. -/
def expressionTokens (grammars : GrammarSet) (embedded : Embedded) (host : Grammar) (z : Zone) :
    Traced (List Token) :=
  if z.body.isEmpty then pure []
  else do
    let grammar ← match z.grammar with
      | some id => lookup grammars id
      | none => pure host
    embedded grammar z.bodyStart z.body

/-- The children of a literal from an offset on: a piece of the literal before every zone,
the delimiters of the zone with its expression between them, and the last piece. -/
def childrenFrom (grammars : GrammarSet) (embedded : Embedded) (host : Grammar) (kind : TokenKind)
    (stop : Nat) : (offset : Nat) → List Zone → Traced (List Token)
  | offset, [] => pure (piece kind offset stop)
  | offset, z :: zones => do
    let inner ← expressionTokens grammars embedded host z
    let after ← childrenFrom grammars embedded host kind stop z.stop zones
    pure (piece kind offset z.start ++ .leaf .interpolationMarker z.openerSpan :: inner ++
      piece .interpolationMarker z.bodyStop z.stop ++ after)

/-- The tree of a token: a leaf without zones, and otherwise a token whose children cover
it. -/
def splice (grammars : GrammarSet) (embedded : Embedded) (host : Grammar) (raw : RawToken) :
    Traced Token :=
  if raw.zones.isEmpty then pure (.leaf raw.kind raw.span)
  else do
    let children ←
      childrenFrom grammars embedded host raw.kind raw.span.stop raw.span.start raw.zones
    pure (.node raw.kind raw.span children)

/-! ### Tokens -/

/-- Tokenizes a text from an offset on, after passing over `skip` characters that belong to
the last token. A run that is cancelled stops at the first token. -/
def forestFrom (grammars : GrammarSet) (budget : Nat) (embedded : Embedded) (cancelled : Bool) :
    (skip : Nat) → RegionStack → (offset : Nat) → Text → Traced (List Token)
  | _, stack, offset, [] => do
    closeOut stack offset
    pure []
  | skip + 1, stack, offset, c :: t =>
    forestFrom grammars budget embedded cancelled skip stack (offset + c.utf8Size) t
  | 0, stack, offset, c :: t =>
    if cancelled then .fail .cancelled
    else do
      let found := stack.current.firstMatch budget offset (c :: t)
      let raw := RawToken.ofMatch found offset (c :: t)
      Traced.report found.diagnostics
      let token ← splice grammars embedded stack.current raw
      let stack ← act grammars stack raw.span raw.action
      let tokens ← forestFrom grammars budget embedded cancelled (found.length - 1) stack
        (offset + c.utf8Size) t
      pure (token :: tokens)

/-- What belongs to the last token is passed over. -/
theorem forestFrom_skip (grammars : GrammarSet) (budget : Nat) (embedded : Embedded)
    (cancelled : Bool) (skip : Nat) (stack : RegionStack) (offset : Nat) (t : Text) :
    forestFrom grammars budget embedded cancelled skip stack offset t =
      forestFrom grammars budget embedded cancelled 0 stack
        (offset + Text.width (t.take skip)) (t.drop skip) := by
  induction t generalizing skip offset with
  | nil => cases skip <;> simp [forestFrom]
  | cons c t ih =>
    cases skip with
    | zero => simp
    | succ skip =>
      rw [forestFrom, ih, List.take_succ_cons, List.drop_succ_cons, Text.width_cons,
        Nat.add_assoc]

/-- Tokenizes a text that starts at an offset, with its own regions. Zones are found only
while there is budget, so without budget nothing is embedded. -/
def forest (grammars : GrammarSet) (regionLimit : Nat) :
    (budget : Nat) → (cancelled : Bool) → (root : Grammar) → (offset : Nat) → Text →
      Traced (List Token)
  | 0, cancelled, root, offset, t =>
    forestFrom grammars 0 (fun _ _ _ => pure []) cancelled 0
      (RegionStack.start root offset regionLimit) offset t
  | budget + 1, cancelled, root, offset, t =>
    forestFrom grammars (budget + 1) (forest grammars regionLimit budget false) cancelled 0
      (RegionStack.start root offset regionLimit) offset t

end Run

/-- The tokens of a span of a text, with a root grammar and a depth of embedding, and what
there is to report. -/
def Session.trace (s : Session) (t : Text) (root : Grammar) (span : Span) (depth : Nat) :
    Traced (List Token) :=
  Run.forest s.grammars s.options.maxRegionDepth (s.options.maxInterpolationDepth - depth)
    (depth == 0 && s.isCancelled) root span.start (t.slice span)

end Polylex
