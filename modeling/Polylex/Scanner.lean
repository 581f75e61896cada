import Polylex.Literal.Match
import Polylex.Text.Window

/-!
# Scanning with one grammar

The first rule of a grammar that matches at a place and reads something gives the token;
where no rule does, a single character is left unclassified. `Polylex.Grammar.firstAt` finds that
token at a place of a text. The text in front of the place makes no difference
(`Polylex.Grammar.firstAt_eq`), so that it is enough to know the token at the start of a text,
`Polylex.Grammar.firstMatch`.

A `Polylex.Scanner` goes through a stretch of text in this way, token by token. It reports
what its literals report, and as a sequence it ends after the first token whose rule acts
on the regions.
-/

namespace Polylex

/-- A token at the start of a text, before its offset is known: the index of its rule, if
one matched, the number of its characters, its zones, and what there is to report. -/
structure Match where
  rule : Option Nat
  kind : TokenKind
  action : Option RegionAction
  length : Nat
  zones : List Zone
  diagnostics : List Diagnostic
deriving Repr, DecidableEq

namespace Matcher

/-- What a matcher finds at a place of a text. `literals` are the literals of its grammar,
`budget` is the number of levels of embedding that are allowed. -/
def find? (m : Matcher) (literals : List Delimited) (budget : Nat) (w : Window) :
    Option Literal.Found :=
  match m with
  | literal text => if text.isPrefixOf w.rest then some ⟨text.length, [], []⟩ else none
  | keyword text =>
    if text.isPrefixOf w.rest && !(w.rest.drop text.length).head?.any continuesIdentifier then
      some ⟨text.length, [], []⟩
    else none
  | chars cls repeats => (cls.runLength? repeats w.rest).map (⟨·, [], []⟩)
  | pattern p => (p.matchLength? w.rest).map (⟨·, [], []⟩)
  | delimited spec => Literal.matchDelimited? spec literals budget w.cursor w.rest
  | heredoc spec => Literal.matchHeredoc? spec literals budget w.cursor w.rest

/-- What a matcher finds at the start of a text at an offset, with nothing in front of it. -/
def match? (m : Matcher) (literals : List Delimited) (budget offset : Nat) (t : Text) :
    Option Literal.Found :=
  m.find? literals budget ⟨[], offset, t⟩

end Matcher

namespace Rule

/-- The token of a rule at a place of a text, if the rule matches and reads something. -/
def find? (r : Rule) (index : Nat) (literals : List Delimited) (budget : Nat) (w : Window) :
    Option Match :=
  match r.matcher.find? literals budget w with
  | none => none
  | some found =>
    if found.length = 0 then none
    else some ⟨some index, r.kind, r.action, found.length, found.zones, found.diagnostics⟩

/-- The token of a rule at the start of a text, if the rule matches and reads
something. -/
def match? (r : Rule) (index : Nat) (literals : List Delimited) (budget offset : Nat) (t : Text) :
    Option Match :=
  r.find? index literals budget ⟨[], offset, t⟩

end Rule

/-- The token of a single character that no rule matches. -/
def Match.unclassified : Match := ⟨none, .unclassified, none, 1, [], []⟩

namespace Grammar

/-- The token of the first of some rules that matches and reads something; the first of the
rules has index `index`. -/
def firstFound (literals : List Delimited) (budget : Nat) (w : Window) (index : Nat) :
    List Rule → Option Match
  | [] => none
  | r :: rest =>
    match r.find? index literals budget w with
    | some found => some found
    | none => firstFound literals budget w (index + 1) rest

/-- The token at a place of a text where something is left. -/
def firstAt (g : Grammar) (budget : Nat) (w : Window) : Match :=
  (firstFound g.literals budget w 0 g.rules).getD Match.unclassified

/-- The token of the first of some rules that matches at the start of a text and reads
something. -/
def firstOf (literals : List Delimited) (budget offset : Nat) (t : Text) (index : Nat)
    (rules : List Rule) : Option Match :=
  firstFound literals budget ⟨[], offset, t⟩ index rules

/-- The token at the start of a text that is not empty. -/
def firstMatch (g : Grammar) (budget offset : Nat) (t : Text) : Match :=
  g.firstAt budget ⟨[], offset, t⟩

end Grammar

/-! ### What is read

A matcher reads the text between the place and the limit, and nothing in front of it. So what is
found at a place is what is found at the start of that text. -/

section Reading

variable {m : Matcher} {literals : List Delimited} {budget offset index : Nat} {t : Text}

theorem Matcher.find?_eq (w : Window) :
    m.find? literals budget w = m.match? literals budget w.cursor w.rest := by
  cases m <;> rfl

theorem Rule.find?_eq (r : Rule) (w : Window) :
    r.find? index literals budget w = r.match? index literals budget w.cursor w.rest := by
  rw [match?, find?, find?, Matcher.find?_eq, Matcher.match?]

theorem Grammar.firstFound_eq (w : Window) (rules : List Rule) :
    firstFound literals budget w index rules =
      firstOf literals budget w.cursor w.rest index rules := by
  induction rules generalizing index with
  | nil => rfl
  | cons r rest ih => rw [firstOf, firstFound, firstFound, Rule.find?_eq, ih, Rule.match?, firstOf]

/-- **What is found at a place depends on the text from there up to the limit**, and on the
offset of the place. -/
theorem Grammar.firstAt_eq (g : Grammar) (w : Window) :
    g.firstAt budget w = g.firstMatch budget w.cursor w.rest := by
  rw [firstMatch, firstAt, firstAt, firstFound_eq, firstOf]

end Reading

/-! ### At the start of a text -/

section Start

variable {literals : List Delimited} {budget offset : Nat} {t : Text}

namespace Matcher

theorem match?_literal {text : Text} :
    (literal text).match? literals budget offset t =
      if text.isPrefixOf t then some ⟨text.length, [], []⟩ else none := rfl

theorem match?_keyword {text : Text} :
    (keyword text).match? literals budget offset t =
      if text.isPrefixOf t && !(t.drop text.length).head?.any continuesIdentifier then
        some ⟨text.length, [], []⟩
      else none := rfl

theorem match?_chars {cls : CharClass} {repeats : Bool} :
    (chars cls repeats).match? literals budget offset t =
      (cls.runLength? repeats t).map (⟨·, [], []⟩) := rfl

theorem match?_pattern {p : Pattern} :
    (pattern p).match? literals budget offset t = (p.matchLength? t).map (⟨·, [], []⟩) := rfl

theorem match?_delimited {spec : Delimited} :
    (delimited spec).match? literals budget offset t =
      Literal.matchDelimited? spec literals budget offset t := rfl

theorem match?_heredoc {spec : Heredoc} :
    (heredoc spec).match? literals budget offset t =
      Literal.matchHeredoc? spec literals budget offset t := rfl

end Matcher

theorem Rule.match?_eq (r : Rule) (index : Nat) :
    r.match? index literals budget offset t =
      match r.matcher.match? literals budget offset t with
      | none => none
      | some found =>
        if found.length = 0 then none
        else some ⟨some index, r.kind, r.action, found.length, found.zones, found.diagnostics⟩ :=
  rfl

namespace Grammar

@[simp] theorem firstOf_nil (index : Nat) : firstOf literals budget offset t index [] = none := rfl

theorem firstOf_cons (index : Nat) (r : Rule) (rest : List Rule) :
    firstOf literals budget offset t index (r :: rest) =
      match r.match? index literals budget offset t with
      | some found => some found
      | none => firstOf literals budget offset t (index + 1) rest := rfl

theorem firstMatch_eq (g : Grammar) :
    g.firstMatch budget offset t =
      (firstOf g.literals budget offset t 0 g.rules).getD Match.unclassified := rfl

end Grammar

end Start

/-! ### Scanners -/

/-- A token as a scanner finds it, with its zones still unread. -/
structure RawToken where
  kind : TokenKind
  span : Span
  rule : Option Nat
  action : Option RegionAction
  zones : List Zone
deriving Repr, DecidableEq

namespace RawToken

/-- Whether the token acts on the regions. -/
def isBoundary (t : RawToken) : Bool := t.action.isSome

/-- The token of a match at the start of a text at an offset. -/
def ofMatch (m : Match) (offset : Nat) (t : Text) : RawToken :=
  ⟨m.kind, ⟨offset, offset + Text.width (t.take m.length)⟩, m.rule, m.action, m.zones⟩

end RawToken

/-- A scan in progress: the place it has reached in a text that is cut off at a limit. -/
structure Scanner extends Window where
  grammar : Grammar
  budget : Nat
  atBoundary : Bool := false
  diagnostics : List Diagnostic := []

namespace Scanner

/-- The scanner at a place. -/
def ofWindow (grammar : Grammar) (w : Window) (budget : Nat) : Scanner :=
  { toWindow := w, grammar, budget }

/-- The scanner of the part of a text from an offset up to a limit. -/
def start (grammar : Grammar) (t : Text) (cursor limit budget : Nat) : Scanner :=
  ofWindow grammar (.ofSpan t ⟨cursor, limit⟩) budget

/-- The next token, whether or not the token before acted on the regions. -/
def scanOne (s : Scanner) : Option RawToken × Scanner :=
  match s.rest with
  | [] => (none, s)
  | c :: t =>
    let m := s.grammar.firstAt s.budget s.toWindow
    (some (RawToken.ofMatch m s.cursor (c :: t)),
      { s with
        toWindow := s.toWindow.advance m.length
        diagnostics := s.diagnostics ++ m.diagnostics })

theorem scanOne_of_rest_eq_nil {s : Scanner} (h : s.rest = []) : s.scanOne = (none, s) := by
  rw [scanOne, h]

theorem scanOne_of_rest_ne_nil {s : Scanner} (h : s.rest ≠ []) :
    s.scanOne =
      (some (RawToken.ofMatch (s.grammar.firstMatch s.budget s.cursor s.rest) s.cursor s.rest),
        { s with
          toWindow :=
            s.toWindow.advance (s.grammar.firstMatch s.budget s.cursor s.rest).length
          diagnostics :=
            s.diagnostics ++ (s.grammar.firstMatch s.budget s.cursor s.rest).diagnostics }) := by
  rw [scanOne]
  split
  next hnil => exact absurd hnil h
  next hcons => rw [Grammar.firstAt_eq, hcons]

/-- The next token; there is none after one that acts on the regions. -/
def next (s : Scanner) : Option RawToken × Scanner :=
  if s.atBoundary then (none, s)
  else
    match s.scanOne with
    | (none, s) => (none, s)
    | (some raw, s) => (some raw, { s with atBoundary := raw.isBoundary })

/-- At most `n` tokens in sequence. -/
def take : Nat → Scanner → List RawToken × Scanner
  | 0, s => ([], s)
  | n + 1, s =>
    match s.next with
    | (none, s) => ([], s)
    | (some raw, s) =>
      let (more, s) := take n s
      (raw :: more, s)

/-- All tokens in sequence: every token reads a character, so there are no more than
characters. -/
def all (s : Scanner) : List RawToken × Scanner := s.take s.rest.length

/-- The reports since the last time, which are then forgotten. -/
def takeDiagnostics (s : Scanner) : List Diagnostic × Scanner :=
  (s.diagnostics, { s with diagnostics := [] })

end Scanner

end Polylex
