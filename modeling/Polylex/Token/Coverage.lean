import Polylex.Token.Walk

/-!
# Merging and coverage

The last steps of a tokenization. `Polylex.Token.mergeAdjacent` joins neighbouring tokens
of one kind. `Polylex.Token.checkCoverage` checks that the tokens of every level follow
each other without gap or overlap, from the start of what they cover to its end.
`Polylex.TokenStream.ofTokens` does both.
-/

namespace Polylex

/-- How a list of tokens can fail to cover a span. -/
inductive CoverageError where
  | gap (expected found : Nat)
  | overlap (expected found : Nat)
  | emptyToken (offset : Nat)
  | incomplete (covered expected : Nat)
deriving Repr, DecidableEq

namespace CoverageError

/-- The error in words. -/
def message : CoverageError → String
  | gap expected found =>
    s!"gap in token coverage: expected token at {expected}, found one at {found}"
  | overlap expected found =>
    s!"overlapping tokens: expected token at {expected}, found one at {found}"
  | emptyToken offset => s!"empty token at {offset}"
  | incomplete covered expected =>
    s!"tokens cover up to {covered} but the range ends at {expected}"

end CoverageError

namespace Token

/-! ### Merging -/

/-- Whether two neighbours become one token: they have the same kind, both have no
children, and they touch. -/
def joins (t u : Token) : Bool :=
  t.kind == u.kind && t.isLeaf && u.isLeaf && t.span.stop == u.span.start

/-- Puts a token after a merged list, of which the last token is given and the others
before it are given in reverse. -/
def mergeInto (merged : List Token) (t : Token) : List Token :=
  match merged with
  | [] => [t]
  | last :: before =>
    if joins last t then leaf last.kind (last.span.cover t.span) :: before
    else t :: last :: before

mutual
/-- A token with its children merged. -/
def mergeChildren : Token → Token
  | node k s cs => node k s (mergeFrom [] cs)

/-- Merges the tokens of a list one after the other into the reversed list of those that
are merged already. -/
def mergeFrom (merged : List Token) : List Token → List Token
  | [] => merged.reverse
  | t :: ts => mergeFrom (mergeInto merged (mergeChildren t)) ts
end

/-- Joins neighbours of one kind that have no children and touch, at every level. -/
def mergeAdjacent (forest : List Token) : List Token := mergeFrom [] forest

/-! ### Coverage -/

mutual
/-- Checks the children of a token, if it has any, against its span. -/
def checkChildren : Token → Except CoverageError Unit
  | node _ s cs => if cs.isEmpty then .ok () else checkFrom s.start s.stop cs

/-- Checks that tokens follow each other from an offset to the end of what they cover, and
every token before those after it. -/
def checkFrom (expected stop : Nat) : List Token → Except CoverageError Unit
  | [] => if expected = stop then .ok () else .error (.incomplete expected stop)
  | t :: ts =>
    if expected < t.span.start then .error (.gap expected t.span.start)
    else if t.span.start < expected then .error (.overlap expected t.span.start)
    else if t.span.isEmpty then .error (.emptyToken t.span.start)
    else
      match checkChildren t with
      | .error e => .error e
      | .ok () => checkFrom t.span.stop stop ts
end

/-- Checks that a forest covers a span: at every level the tokens are not empty and follow
each other without gap or overlap. -/
def checkCoverage (forest : List Token) (span : Span) : Except CoverageError Unit :=
  checkFrom span.start span.stop forest

end Token

namespace TokenStream

/-- The stream of the tokens of a text of a given width, merged or not, if they cover
it. -/
def ofTokens (tokens : List Token) (width : Nat) (merge : Bool) :
    Except CoverageError TokenStream :=
  let tokens := if merge then Token.mergeAdjacent tokens else tokens
  match Token.checkCoverage tokens ⟨0, width⟩ with
  | .error e => .error e
  | .ok () => .ok ⟨tokens, width⟩

end TokenStream

end Polylex
