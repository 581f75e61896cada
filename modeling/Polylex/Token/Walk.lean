import Polylex.Token.Basic

/-!
# Walking a forest

Two ways through the tokens of a forest, both depth first:

* `Polylex.TokenStream.records` lists every token, parents before children, with the
  number of tokens around it;
* `Polylex.TokenStream.leaves` lists the tokens without children.

Both keep the levels they are in the middle of, innermost first, each with the tokens
still to come. A step finishes because there are fewer tokens to come, or fewer levels.
-/

namespace Polylex

/-- A token of a depth-first walk: its kind, its span and the number of tokens around
it. -/
structure TokenRecord where
  kind : TokenKind
  span : Span
  depth : Nat
deriving Repr, DecidableEq

namespace Walk

/-- What a walk has before it: the tokens still to come at all open levels, each counted
twice, and the levels themselves. -/
def remaining : List (List Token) → Nat
  | [] => 0
  | level :: outer => 2 * Token.countForest level + 1 + remaining outer

theorem remaining_leave (outer : List (List Token)) :
    remaining outer < remaining ([] :: outer) := by
  simp only [remaining, Token.countForest_nil]
  omega

theorem remaining_pass (t : Token) (ts : List Token) (outer : List (List Token)) :
    remaining (ts :: outer) < remaining ((t :: ts) :: outer) := by
  simp only [remaining, Token.countForest_cons]
  omega

theorem remaining_open (t : Token) (ts : List Token) (outer : List (List Token)) :
    remaining (t.children :: ts :: outer) < remaining ((t :: ts) :: outer) := by
  simp only [remaining, Token.countForest_cons]
  omega

/-- The records of the tokens still to come. A level is left when it is exhausted, and a
token with children opens a level; the depth of a token is the number of levels around its
own. -/
def records : List (List Token) → List TokenRecord
  | [] => []
  | [] :: outer => records outer
  | (t :: ts) :: outer =>
    let here : TokenRecord := ⟨t.kind, t.span, outer.length⟩
    if t.isLeaf then here :: records (ts :: outer)
    else here :: records (t.children :: ts :: outer)
termination_by levels => remaining levels
decreasing_by
  · exact remaining_leave outer
  · exact remaining_pass t ts outer
  · exact remaining_open t ts outer

/-- The leaves among the tokens still to come. -/
def leaves : List (List Token) → List Token
  | [] => []
  | [] :: outer => leaves outer
  | (t :: ts) :: outer =>
    if t.isLeaf then t :: leaves (ts :: outer) else leaves (t.children :: ts :: outer)
termination_by levels => remaining levels
decreasing_by
  · exact remaining_leave outer
  · exact remaining_pass t ts outer
  · exact remaining_open t ts outer

end Walk

/-- The tokens of a whole text and its width. -/
structure TokenStream where
  tokens : List Token
  width : Nat
deriving Repr

namespace TokenStream

/-- Whether there are no tokens. -/
def isEmpty (s : TokenStream) : Bool := s.tokens.isEmpty

/-- All tokens, parents before children. -/
def records (s : TokenStream) : List TokenRecord := Walk.records [s.tokens]

/-- The tokens without children, in the order of the text. -/
def leaves (s : TokenStream) : List Token := Walk.leaves [s.tokens]

/-- The greatest depth of a token, and zero when no token has children. -/
def maxDepth (s : TokenStream) : Nat := (s.records.map (·.depth)).foldl max 0

end TokenStream

end Polylex
