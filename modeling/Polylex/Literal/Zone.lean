import Polylex.Grammar.Basic

/-!
# Zones

A `Polylex.Zone` is an embedded expression inside a literal: the delimiter that opens it,
the text of the expression, and the delimiter that closes it. The three follow each other
without a gap, so the offset of the first fixes all spans.
-/

namespace Polylex

/-- An embedded expression. A zone without a closing delimiter has an empty one, a zone
without a grammar is in the grammar of its literal. -/
structure Zone where
  start : Nat
  opener : Text
  body : Text
  closer : Text
  grammar : Option String
deriving Repr, DecidableEq

namespace Zone

/-- The offset of the expression. -/
def bodyStart (z : Zone) : Nat := z.start + z.opener.width

/-- The offset after the expression. -/
def bodyStop (z : Zone) : Nat := z.bodyStart + z.body.width

/-- The offset after the zone. -/
def stop (z : Zone) : Nat := z.bodyStop + z.closer.width

/-- The span of the opening delimiter. -/
def openerSpan (z : Zone) : Span := ⟨z.start, z.bodyStart⟩

/-- The span of the expression. -/
def bodySpan (z : Zone) : Span := ⟨z.bodyStart, z.bodyStop⟩

/-- The span of the closing delimiter. -/
def closerSpan (z : Zone) : Span := ⟨z.bodyStop, z.stop⟩

/-- The span of the whole zone. -/
def span (z : Zone) : Span := ⟨z.start, z.stop⟩

/-- The number of characters of the whole zone. -/
def length (z : Zone) : Nat := z.opener.length + z.body.length + z.closer.length

end Zone

end Polylex
