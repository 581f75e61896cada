import Polylex.Pattern.Bracket
import Polylex.Pattern.Program

/-!
# Reading patterns

Reads a written pattern into a `Polylex.Regex`. The reader goes through the text once and
keeps a stack of the open groups. Each group holds the alternatives that are complete,
the items of the current one, and the flags in force outside.

`Polylex.Regex.read?` reads an expression as it stands; `Polylex.Pattern.atStart?` reads the
pattern of a rule, which is bound to the start of the text up to its first unbalanced
closing parenthesis.
-/

namespace Polylex

/-- The flags in force at a place of a written pattern. -/
structure PatternFlags where
  ignoreCase : Bool := false
  multiLine : Bool := false
  dotMatchesFeed : Bool := false
  swapGreed : Bool := false
deriving Repr, DecidableEq

namespace PatternFlags

/-- The flags after setting or clearing the one with a letter. -/
def put? (f : PatternFlags) (value : Bool) : Char → Option PatternFlags
  | 'i' => some { f with ignoreCase := value }
  | 'm' => some { f with multiLine := value }
  | 's' => some { f with dotMatchesFeed := value }
  | 'U' => some { f with swapGreed := value }
  | 'u' => if value then some f else none
  | _ => none

/-- Reads flag letters up to the colon or parenthesis that ends them. A letter must not
occur twice, nor the hyphen that turns setting into clearing, and something must follow
the hyphen. Gives the flags, whether a parenthesis ended them, and the number of
characters read. -/
def read? (f : PatternFlags) (seen : List Char) : Text → Option (PatternFlags × Bool × Nat)
  | [] => none
  | c :: t =>
    if c = ':' || c = ')' then
      if seen.head? == some '-' then none
      else if c = ')' && seen.isEmpty then none
      else some (f, c == ')', 1)
    else if seen.contains c then none
    else
      let next : Option PatternFlags :=
        if c = '-' then some f else f.put? (!seen.contains '-') c
      match next with
      | none => none
      | some f => (read? f (c :: seen) t).map fun (g, closed, n) => (g, closed, n + 1)

end PatternFlags

namespace Regex

/-- An open group: whether it is numbered, its complete alternatives and the items of the
current one, both with the last first. An item `none` is a change of flags, which cannot be
repeated. -/
structure Level where
  numbered : Bool := false
  alternatives : List Regex := []
  items : List (Option Regex) := []
deriving Repr

namespace Level

/-- The current alternative. -/
def current (l : Level) : Regex := sequence (l.items.reverse.filterMap id)

/-- The expression of the whole group. -/
def value (l : Level) : Regex :=
  let p := choice (l.alternatives.reverse ++ [l.current])
  if l.numbered then group p else p

/-- One more item. -/
def push (l : Level) (item : Option Regex) : Level := { l with items := item :: l.items }

/-- The end of an alternative. -/
def split (l : Level) : Level :=
  { l with alternatives := l.current :: l.alternatives, items := [] }

/-- The level with its last item replaced; there must be one, and it must be an expression. -/
def mapLast? (l : Level) (f : Regex → Regex) : Option Level :=
  match l.items with
  | some p :: rest => some { l with items := some (f p) :: rest }
  | _ => none

end Level

/-- The state of the reader: the flags in force, the innermost group, the groups around it
with the flags in force there, and the group names in use. -/
structure ReaderState where
  flags : PatternFlags := {}
  level : Level := {}
  outer : List (Level × PatternFlags) := []
  names : List Text := []
deriving Repr

namespace ReaderState

/-- One more item in the innermost group. -/
def push (s : ReaderState) (p : Regex) : ReaderState := { s with level := s.level.push (some p) }

/-- Opens a group, numbered or not, in which some flags hold. -/
def openGroup (s : ReaderState) (numbered : Bool) (inside : PatternFlags) : ReaderState :=
  { s with flags := inside, level := { numbered }, outer := (s.level, s.flags) :: s.outer }

/-- Closes the innermost group; the flags of the group around it hold again. -/
def closeGroup? (s : ReaderState) : Option ReaderState :=
  match s.outer with
  | [] => none
  | (level, flags) :: rest =>
    some { s with flags, level := level.push (some s.level.value), outer := rest }

/-- Whether a character may stand in the name of a group. -/
def isNameCharacter (first : Bool) (c : Char) : Bool :=
  if first then c == '_' || Unicode.isAlphabetic c
  else c == '_' || c == '.' || c == '[' || c == ']' || Unicode.isAlphanumeric c

/-- Opens a named group, from the text after the angle bracket. -/
def openNamed? (s : ReaderState) (t : Text) : Option (ReaderState × Nat) :=
  let name := t.takeWhile (· != '>')
  let valid := match name with
    | [] => false
    | c :: rest => isNameCharacter true c && rest.all (isNameCharacter false)
  if name.length < t.length && valid && !s.names.contains name then
    some ({ s.openGroup true s.flags with names := name :: s.names }, name.length + 1)
  else none

/-- What an opening parenthesis begins: a group, a named group, a group with flags, or a
change of flags. Looking around is not supported. -/
def parenthesis? (s : ReaderState) : Text → Option (ReaderState × Nat)
  | '?' :: '<' :: '=' :: _ => none
  | '?' :: '<' :: '!' :: _ => none
  | '?' :: 'P' :: '<' :: t => (s.openNamed? t).map fun (s, n) => (s, n + 3)
  | '?' :: '<' :: t => (s.openNamed? t).map fun (s, n) => (s, n + 2)
  | '?' :: t =>
    match s.flags.read? [] t with
    | none => none
    | some (flags, true, n) => some ({ s with flags, level := s.level.push none }, n + 1)
    | some (flags, false, n) => some (s.openGroup false flags, n + 1)
  | _ => some (s.openGroup true s.flags, 0)

/-- Repeats the last item. A question mark after the repetition, which is the text `t`,
swaps its greed. `n` characters have been read before `t`. -/
def repeat? (s : ReaderState) (least : Nat) (most : Option Nat) (t : Text) (n : Nat) :
    Option (ReaderState × Nat) :=
  let reluctant := t.head? == some '?'
  let greedy := reluctant == s.flags.swapGreed
  (s.level.mapLast? fun p => p.times least most greedy).map fun level =>
    ({ s with level }, if reluctant then n + 1 else n)

/-- A decimal below `2 ^ 32` with white space around it, and the text after it. -/
def decimal? (t : Text) : Option (Nat × Text) :=
  let t := t.dropWhile Unicode.isBlank
  let digits := t.takeWhile Char.isDigit
  let n := digits.foldl (fun n d => 10 * n + (d.toNat - '0'.toNat)) 0
  if digits.isEmpty || 4294967296 ≤ n then none
  else some (n, (t.drop digits.length).dropWhile Unicode.isBlank)

/-- A counted repetition, from the text after its opening brace. -/
def counted? (s : ReaderState) (t : Text) : Option (ReaderState × Nat) := do
  let (least, rest) ← decimal? t
  let (most, rest) ← match rest with
    | ',' :: rest =>
      if rest.head? == some '\x7d' then some (none, rest)
      else (decimal? rest).map fun (n, rest) => (some n, rest)
    | rest => some (some least, rest)
  match rest with
  | '\x7d' :: rest =>
    if most.any (· < least) then none else s.repeat? least most rest (t.length - rest.length)
  | _ => none

/-- The expression of an escape outside brackets. -/
def ofEscape (f : PatternFlags) : Escape → Regex
  | .char c => one (CharSet.withCase f.ignoreCase (.single c))
  | .shorthand s => one s
  | .property p negated => one ((CharSet.withCase f.ignoreCase (.property p)).negatedIf negated)
  | .anchor a => anchor a

/-- Reads what begins with the character `c`, which stands before the text `t`. Gives the
state after it and the number of characters of `t` that belong to it. -/
def step? (s : ReaderState) (c : Char) (t : Text) : Option (ReaderState × Nat) :=
  match c with
  | '(' => s.parenthesis? t
  | ')' => s.closeGroup?.map fun s => (s, 0)
  | '|' => some ({ s with level := s.level.split }, 0)
  | '[' => (Bracket.read? s.flags.ignoreCase t).map fun (set, n) => (s.push (one set), n)
  | '?' => s.repeat? 0 (some 1) t 0
  | '*' => s.repeat? 0 none t 0
  | '+' => s.repeat? 1 none t 0
  | '\x7b' => s.counted? t
  | '\\' => (Escape.read? t).map fun (e, n) => (s.push (ofEscape s.flags e), n)
  | '.' =>
    let all := CharSet.property .any
    some (s.push (one (if s.flags.dotMatchesFeed then all else .diff all (.single '\n'))), 0)
  | '^' => some (s.push (anchor (if s.flags.multiLine then .lineStart else .textStart)), 0)
  | '$' => some (s.push (anchor (if s.flags.multiLine then .lineEnd else .textEnd)), 0)
  | c => some (s.push (one (CharSet.withCase s.flags.ignoreCase (.single c))), 0)

/-- Reads a text to its end, after passing over `skip` characters that are already
accounted for. -/
def readFrom? : (skip : Nat) → ReaderState → Text → Option ReaderState
  | _, s, [] => some s
  | skip + 1, s, _ :: t => readFrom? skip s t
  | 0, s, c :: t =>
    match s.step? c t with
    | none => none
    | some (next, n) => readFrom? n next t

end ReaderState

/-- The expression that a text writes, if it is well formed. -/
def read? (t : Text) : Option Regex :=
  match ReaderState.readFrom? 0 {} t with
  | none => none
  | some s => if s.outer.isEmpty then some s.level.value else none

end Regex

/-- The pattern that a text writes, with a group that begins at the start of the text
around it. A closing parenthesis without partner thus ends the part that is bound to the
start of the text. -/
def Pattern.atStart? (t : Text) : Option Pattern :=
  (Regex.read? ("\\A(?:".toList ++ t ++ ")".toList)).map Pattern.ofRegex

end Polylex
