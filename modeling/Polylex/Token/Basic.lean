import Polylex.Text.Basic
import Polylex.Token.Kind

/-!
# Token trees

A token has a kind, a span and children. Only literals with embedded expressions have
children, and these cover the token. A forest is a list of tokens.
-/

namespace Polylex

/-- A token and the tokens inside it. -/
inductive Token where
  | node (kind : TokenKind) (span : Span) (children : List Token)
deriving Repr

namespace Token

/-- What the token is. -/
def kind : Token → TokenKind
  | node k _ _ => k

/-- Where the token is. -/
def span : Token → Span
  | node _ s _ => s

/-- The tokens inside the token. -/
def children : Token → List Token
  | node _ _ cs => cs

@[simp] theorem kind_node (k : TokenKind) (s : Span) (cs : List Token) :
    (node k s cs).kind = k := rfl

@[simp] theorem span_node (k : TokenKind) (s : Span) (cs : List Token) :
    (node k s cs).span = s := rfl

@[simp] theorem children_node (k : TokenKind) (s : Span) (cs : List Token) :
    (node k s cs).children = cs := rfl

/-- A token without children. -/
def leaf (kind : TokenKind) (span : Span) : Token := node kind span []

/-- Whether the token has no children. -/
def isLeaf (t : Token) : Bool := t.children.isEmpty

mutual
/-- The number of tokens of a tree. -/
def count : Token → Nat
  | node _ _ cs => 1 + countForest cs

/-- The number of tokens of a forest. -/
def countForest : List Token → Nat
  | [] => 0
  | t :: ts => count t + countForest ts
end

@[simp] theorem countForest_nil : countForest [] = 0 := rfl

@[simp] theorem countForest_cons (t : Token) (ts : List Token) :
    countForest (t :: ts) = 1 + countForest t.children + countForest ts := by
  cases t
  simp [countForest, count]

end Token

end Polylex
