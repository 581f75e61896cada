/-!
# Options

The limits of a tokenization, what it does about diagnostics, and whether it merges
neighbouring tokens.
-/

namespace Polylex

/-- What a tokenization does about diagnostics: go on, or fail with the first. -/
inductive Policy where
  | lenient
  | strict
deriving Repr, DecidableEq

/-- The options of a tokenization. -/
structure TokenizeOptions where
  maxRegionDepth : Nat := 64
  maxInterpolationDepth : Nat := 16
  policy : Policy := .lenient
  mergeAdjacent : Bool := true
deriving Repr, DecidableEq

namespace TokenizeOptions

/-- Whether the first diagnostic is an error. -/
def isStrict (o : TokenizeOptions) : Bool := o.policy == .strict

end TokenizeOptions

end Polylex
