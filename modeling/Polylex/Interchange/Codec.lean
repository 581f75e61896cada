import Polylex.Interchange.Datum
import Polylex.Run.Options
import Polylex.Diagnostic
import Polylex.Token.Walk

/-!
# Reading and writing data values

Reads and writes the types that are exchanged as data values: the kinds of tokens, the
codes and severities of diagnostics, the options of a tokenization and the records of a
walk.

Records may be written with their fields by name, in which case fields that are not known
do not count, or as a list of their values in order. Every field of the options may be left
out, and stands for its default then; a list may stop early.
-/

namespace Polylex

/-- The names of the kinds. -/
def TokenKind.table : List (String × TokenKind) :=
  [("WHITESPACE", .whitespace), ("COMMENT", .comment), ("KEYWORD", .keyword),
   ("IDENT", .identifier), ("TYPE_NAME", .typeName), ("FUNCTION", .function),
   ("VARIABLE", .variableName), ("NUMBER", .number), ("STRING", .string), ("ESCAPE", .escape),
   ("REGEX", .regex), ("OPERATOR", .operator), ("PUNCTUATION", .punctuation), ("TAG", .tag),
   ("ATTRIBUTE", .attributeName), ("TEXT", .text), ("ENTITY", .entity),
   ("REGION_MARKER", .regionMarker), ("INTERPOLATION_MARKER", .interpolationMarker),
   ("UNCLASSIFIED", .unclassified)]

/-- The names of the diagnostic codes. -/
def DiagnosticCode.table : List (String × DiagnosticCode) :=
  [("UnterminatedRegion", .unterminatedRegion), ("RecursiveRegion", .recursiveRegion),
   ("UnmatchedInterpolationCloser", .unmatchedInterpolationCloser),
   ("NestingLimit", .nestingLimit)]

/-- The names of the severities. -/
def Severity.table : List (String × Severity) :=
  [("Error", .error), ("Warning", .warning), ("Hint", .hint)]

/-- The names of the policies. -/
def Policy.table : List (String × Policy) := [("lenient", .lenient), ("strict", .strict)]

/-! ### Options -/

namespace TokenizeOptions

/-- The least number that is too great for a depth, `2 ^ 64`. -/
def depthBound : Nat := 18446744073709551616

/-- The values of the fields, of which any may be left out. -/
def ofFields? (regionDepth interpolationDepth policy merge : Option Datum) :
    Option TokenizeOptions := do
  let base : TokenizeOptions := {}
  let maxRegionDepth ← regionDepth.elim (some base.maxRegionDepth) (·.natBelow? depthBound)
  let maxInterpolationDepth ←
    interpolationDepth.elim (some base.maxInterpolationDepth) (·.natBelow? depthBound)
  let policy ← policy.elim (some base.policy) (·.named? Policy.table)
  let mergeAdjacent ← merge.elim (some base.mergeAdjacent) (·.bool?)
  return { maxRegionDepth, maxInterpolationDepth, policy, mergeAdjacent }

/-- Reads options. -/
def ofDatum? : Datum → Option TokenizeOptions
  | .record fields =>
    ofFields? (fields.lookup "max_region_depth") (fields.lookup "max_interpolation_depth")
      (fields.lookup "policy") (fields.lookup "merge_adjacent")
  | .list items =>
    if items.length ≤ 4 then ofFields? items[0]? items[1]? items[2]? items[3]? else none
  | _ => none

/-- Writes options. -/
def toDatum (o : TokenizeOptions) : Datum :=
  .record [("max_region_depth", .integer o.maxRegionDepth),
    ("max_interpolation_depth", .integer o.maxInterpolationDepth),
    ("policy", .ofNamed Policy.table o.policy), ("merge_adjacent", .bool o.mergeAdjacent)]

end TokenizeOptions

/-! ### Records of a walk -/

namespace Span

/-- Reads a span: its start and its stop, in order. -/
def ofDatum? : Datum → Option Span
  | .list [start, stop] => do
    let start ← start.natBelow? offsetBound
    let stop ← stop.natBelow? offsetBound
    if start ≤ stop then some ⟨start, stop⟩ else none
  | _ => none

/-- Writes a span. -/
def toDatum (s : Span) : Datum := .list [.integer s.start, .integer s.stop]

end Span

namespace TokenRecord

/-- The least number that is too great for a depth, `2 ^ 32`. -/
def depthBound : Nat := 4294967296

/-- The values of the fields. -/
def ofFields? (kind span depth : Datum) : Option TokenRecord := do
  let kind ← kind.named? TokenKind.table
  let span ← Span.ofDatum? span
  let depth ← depth.natBelow? depthBound
  return ⟨kind, span, depth⟩

/-- Reads a record. -/
def ofDatum? : Datum → Option TokenRecord
  | .record fields => do
    ofFields? (← fields.lookup "kind") (← fields.lookup "range") (← fields.lookup "depth")
  | .list [kind, span, depth] => ofFields? kind span depth
  | _ => none

/-- Writes a record. -/
def toDatum (r : TokenRecord) : Datum :=
  .record [("kind", .ofNamed TokenKind.table r.kind), ("range", r.span.toDatum),
    ("depth", .integer r.depth)]

end TokenRecord

end Polylex
