import Polylex.Run.Session
import Polylex.Scanner

/-!
# Runs

A run tokenizes a span of a text in a session. A scanner of the grammar of the innermost open
region finds the tokens; when the rule of a token enters, leaves or switches a region, a scanner of
the grammar that is in force then goes on behind the token. A token with zones becomes a tree,
whose children are the pieces of the literal, the delimiters of the zones and the tokens of their
expressions, which are runs of their own.

* `Polylex.SessionM.act` applies the action of a rule to the open regions;
* `Polylex.SessionM.splice` makes the tree of a token with zones;
* `Polylex.SessionM.drain` asks a scanner for its tokens up to the first that acts, and
  `Polylex.SessionM.reseat` starts one scanner after the other;
* `Polylex.SessionM.runIn` ties them together by recursion on the budget, the number of levels of
  embedding that are still allowed: the expression of a zone is run with its own regions and one
  level less.

`Polylex.Session.runRange` and `Polylex.Session.run` are the runs that a session is asked for.
-/

namespace Polylex

namespace Run

/-! ### Reports -/

/-- The report of a region that is not entered since one of its grammar is open. -/
def recursiveDiagnostic (id inside : String) (opener : Span) : Diagnostic :=
  .new .recursiveRegion s!"`{id}` is already active; staying in `{inside}`" opener

/-- The report of a region that is not entered since there are too many. -/
def depthLimitDiagnostic (limit : Nat) (id : String) (opener : Span) : Diagnostic :=
  .new .nestingLimit s!"region depth limit of {limit} reached; `{id}` not entered" opener

/-- The report of a region that is open at the end of the text. -/
def unclosedDiagnostic (stop : Nat) (region : Region) : Diagnostic :=
  (Diagnostic.new .unterminatedRegion s!"`{region.id}` region is never closed"
      ⟨region.start, stop⟩).withRelated
    "region opened here" region.opener

/-- A leaf, if its span is not empty. -/
def piece (kind : TokenKind) (start stop : Nat) : List Token :=
  if start < stop then [.leaf kind ⟨start, stop⟩] else []

end Run

namespace SessionM

/-! ### Regions -/

/-- Enters the region of a grammar after the token that opens it. A refusal is reported and
changes nothing. -/
def enter (stack : RegionStack) (id : String) (opener : Span) : SessionM RegionStack := do
  let grammar ← lookup id
  match stack.push grammar opener.stop opener with
  | .ok stack => pure stack
  | .error (.recursive id) =>
    report [Run.recursiveDiagnostic id stack.current.id opener]
    pure stack
  | .error (.depthLimit limit) =>
    report [Run.depthLimitDiagnostic limit id opener]
    pure stack
  | .error e => throw (.region e)

/-- Leaves the innermost region, unless it is the root. -/
def leave (stack : RegionStack) (offset : Nat) : SessionM RegionStack :=
  if stack.isRoot then pure stack
  else
    match stack.pop offset with
    | .ok (_, stack) => pure stack
    | .error e => throw (.region e)

/-- Applies the action of a rule after its token. -/
def act (stack : RegionStack) (token : Span) : Option RegionAction → SessionM RegionStack
  | none => pure stack
  | some (.enter id) => enter stack id token
  | some .exit => leave stack token.stop
  | some (.switch id) => do
    let stack ← leave stack token.stop
    enter stack id token

/-- Reports the regions that are open at the end of the text, innermost first. -/
def closeOut (stack : RegionStack) (stop : Nat) : SessionM Unit :=
  (stack.closeAll stop).1.forM fun region => report [Run.unclosedDiagnostic stop region]

/-! ### Zones -/

/-- Tokenizes what is left of a text at a place, with a grammar. -/
abbrev Embedded := (root : Grammar) → Window → SessionM (List Token)

/-- The tokens of the expression of a zone that stands behind a place. Without a grammar of its
own it is in the grammar of the literal. -/
def expressionTokens (embedded : Embedded) (host : Grammar) (w : Window) (z : Zone) :
    SessionM (List Token) :=
  if z.body.isEmpty then pure []
  else do
    let grammar ← match z.grammar with
      | some id => lookup id
      | none => pure host
    embedded grammar (w.focus z.bodySpan)

/-- The children of a literal from an offset on: a piece of the literal before every zone,
the delimiters of the zone with its expression between them, and the last piece. -/
def childrenFrom (embedded : Embedded) (host : Grammar) (w : Window) (kind : TokenKind)
    (stop : Nat) : (offset : Nat) → List Zone → SessionM (List Token)
  | offset, [] => pure (Run.piece kind offset stop)
  | offset, z :: zones => do
    let inner ← expressionTokens embedded host w z
    let after ← childrenFrom embedded host w kind stop z.stop zones
    pure (Run.piece kind offset z.start ++ .leaf .interpolationMarker z.openerSpan :: inner ++
      Run.piece .interpolationMarker z.bodyStop z.stop ++ after)

/-- The tree of a token that stands at a place or behind it: a leaf without zones, and otherwise a
token whose children cover it. -/
def splice (embedded : Embedded) (host : Grammar) (w : Window) (raw : RawToken) :
    SessionM Token :=
  if raw.zones.isEmpty then pure (.leaf raw.kind raw.span)
  else do
    let children ← childrenFrom embedded host w raw.kind raw.span.stop raw.span.start raw.zones
    pure (.node raw.kind raw.span children)

/-! ### Tokens -/

/-- Asks a scanner for one token after the other until there is none, and applies their actions.
Gives their trees, with the scanner and the open regions at the end. In a document the signal is
looked at before every token. Every token reads a character, so no more steps are made than there
are characters. -/
def drain (embedded : Embedded) (document : Bool) :
    (steps : Nat) → Scanner → RegionStack → SessionM (List Token × Scanner × RegionStack)
  | 0, scanner, stack => pure ([], scanner, stack)
  | steps + 1, scanner, stack =>
    match scanner.next with
    | (none, scanner) => pure ([], scanner, stack)
    | (some raw, behind) => do
      if document then checkSignal
      let (found, behind) := behind.takeDiagnostics
      report found
      let token ← splice embedded scanner.grammar scanner.toWindow raw
      let stack ← act stack raw.span raw.action
      let (tokens, behind, stack) ← drain embedded document steps behind stack
      pure (token :: tokens, behind, stack)

/-- Scans what is left of a text at a place, with one scanner after the other: each is of the
grammar that is in force where it starts, and goes on to the first token that acts on the regions.
Gives the trees of the tokens, and the open regions at the end. -/
def reseat (embedded : Embedded) (document : Bool) (budget : Nat) :
    (steps : Nat) → Window → RegionStack → SessionM (List Token × RegionStack)
  | 0, _, stack => pure ([], stack)
  | steps + 1, w, stack =>
    if w.rest.isEmpty then pure ([], stack)
    else do
      let scanner := Scanner.ofWindow stack.current w budget
      let (tokens, scanner, stack) ← drain embedded document w.rest.length scanner stack
      let (more, stack) ← reseat embedded document budget steps scanner.toWindow stack
      pure (tokens ++ more, stack)

/-- Tokenizes what is left of a text at a place, with its own regions. -/
def runWith (embedded : Embedded) (document : Bool) (budget : Nat) (root : Grammar) (w : Window) :
    SessionM (List Token) := do
  let stack := RegionStack.start root w.cursor (← get).options.maxRegionDepth
  let (tokens, stack) ← reseat embedded document budget w.rest.length w stack
  closeOut stack w.limit
  pure tokens

/-- Tokenizes what is left of a text at a place, and the expressions in it. Zones are found only
while there is budget, so without budget nothing is embedded. -/
def runIn : (budget : Nat) → (document : Bool) → (root : Grammar) → Window →
    SessionM (List Token)
  | 0, document, root, w => runWith (fun _ _ => pure []) document 0 root w
  | budget + 1, document, root, w => runWith (runIn budget false) document (budget + 1) root w

end SessionM

/-! ### Requests -/

namespace Session

/-- Tokenizes a span of a text, with a root grammar and at a depth of embedding. The session keeps
what is reported, also when the run fails. Only a document, which is at depth zero, is stopped by
the signal. -/
def runRange (s : Session) (t : Text) (root : Grammar) (span : Span) (depth : Nat) :
    Except TokenizeError (List Token) × Session :=
  let budget := s.options.maxInterpolationDepth - depth
  (SessionM.runIn budget (depth == 0) root (.ofSpan t span)).run.run s

/-- Tokenizes a whole text with a grammar of the set. -/
def run (s : Session) (t : Text) (root : String) : Except TokenizeError (List Token) × Session :=
  match s.grammar root with
  | .error e => (.error e, s)
  | .ok grammar => s.runRange t grammar ⟨0, t.width⟩ 0

end Session

end Polylex
