/-!
# Kinds of tokens

The kinds that rules give to the spans they match. All grammars share them, so markup,
scripts and embedded expressions can be shown alike.
-/

namespace Polylex

/-- What a token is. -/
inductive TokenKind where
  | whitespace
  | comment
  | keyword
  | identifier
  | typeName
  | function
  | variableName
  | number
  | string
  | escape
  | regex
  | operator
  | punctuation
  | tag
  | attributeName
  | text
  | entity
  | regionMarker
  | interpolationMarker
  | unclassified
deriving Repr, DecidableEq

namespace TokenKind

/-- The name under which a kind is shown. -/
def name : TokenKind → String
  | whitespace => "whitespace"
  | comment => "comment"
  | keyword => "keyword"
  | identifier => "ident"
  | typeName => "type"
  | function => "function"
  | variableName => "variable"
  | number => "number"
  | string => "string"
  | escape => "escape"
  | regex => "regex"
  | operator => "operator"
  | punctuation => "punctuation"
  | tag => "tag"
  | attributeName => "attribute"
  | text => "text"
  | entity => "entity"
  | regionMarker => "region-marker"
  | interpolationMarker => "interpolation-marker"
  | unclassified => "unclassified"

/-- All kinds, in the order of their numbers. -/
def all : List TokenKind :=
  [whitespace, comment, keyword, identifier, typeName, function, variableName, number, string,
   escape, regex, operator, punctuation, tag, attributeName, text, entity, regionMarker,
   interpolationMarker, unclassified]

/-- The number of a kind. -/
def index (k : TokenKind) : Nat := all.idxOf k

/-- Whether a token of the kind has no meaning of its own. -/
def isTrivia : TokenKind → Bool
  | whitespace | comment => true
  | _ => false

/-- Whether a token of the kind marks a boundary between grammars. -/
def isMarker : TokenKind → Bool
  | regionMarker | interpolationMarker => true
  | _ => false

end TokenKind

end Polylex
