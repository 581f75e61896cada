import Polylex.Grammar.Basic
import Polylex.Pattern.Reader

/-!
# Sets of grammars

A `Polylex.GrammarSet` holds grammars that refer to each other by name.
`Polylex.GrammarSet.build` refuses a list of grammars that is not usable: two grammars of
one name, a name that no grammar has, or a rule that could match without reading anything.
It reports the first defect: repeated names before all others, then the defects of the
rules in their order.
-/

namespace Polylex

/-- What makes a rule unusable. -/
inductive RuleDefect where
  | emptyMatch
  | unknownGrammar (target : String)
  | emptyInterpolation
  | invalidHeredocFlags
deriving Repr, DecidableEq

/-- What makes a grammar, or a list of grammars, unusable. -/
inductive GrammarError where
  | invalidPattern (pattern : String)
  | duplicateGrammar (id : String)
  | inRule (grammar : String) (rule : Nat) (defect : RuleDefect)
deriving Repr, DecidableEq

namespace GrammarError

/-- The error in words. -/
def message : GrammarError → String
  | invalidPattern pattern => s!"invalid pattern `{pattern}`"
  | duplicateGrammar id => s!"grammar `{id}` is defined more than once"
  | inRule grammar rule defect =>
    let place := s!"rule {rule} of grammar `{grammar}`"
    match defect with
    | .emptyMatch => s!"{place} can match the empty string"
    | .unknownGrammar target => s!"{place} refers to unknown grammar `{target}`"
    | .emptyInterpolation => s!"{place} has an empty interpolation delimiter"
    | .invalidHeredocFlags => s!"{place} has heredoc flags that overlap labels"

end GrammarError

/-- The matcher of a written pattern. -/
def Matcher.ofPattern (source : String) : Except GrammarError Matcher :=
  match Pattern.atStart? source.toList with
  | none => .error (.invalidPattern source)
  | some p => .ok (.pattern p)

namespace Interpolation

/-- What makes a form unusable: an empty delimiter, or a grammar that is not known. -/
def defect? (known : String → Bool) (form : Interpolation) : Option RuleDefect :=
  let emptyDelimiter := match form with
    | braced opener closer _ => opener.isEmpty || closer.isEmpty
    | sigil _ _ => false
  if emptyDelimiter then some .emptyInterpolation
  else
    match form.grammar with
    | none => none
    | some g => if known g then none else some (.unknownGrammar g)

end Interpolation

namespace Rule

/-- The grammar that the action of the rule names. -/
def target (r : Rule) : Option String := r.action.bind (·.target)

/-- Whether a character could belong to a label, so that it cannot be a flag. -/
def overlapsLabel (c : Char) : Bool := c == '_' || Unicode.isAlphanumeric c

/-- The first thing that makes a rule unusable: an empty match, the target of its action,
its forms of embedded expression in order, or its flags. -/
def defect? (known : String → Bool) (r : Rule) : Option RuleDefect :=
  if r.matcher.canMatchEmpty then some .emptyMatch
  else
    match r.target.filter (!known ·) with
    | some g => some (.unknownGrammar g)
    | none =>
      match r.matcher.interpolations.findSome? (·.defect? known) with
      | some d => some d
      | none => if r.matcher.heredocFlags.any overlapsLabel then some .invalidHeredocFlags else none

end Rule

namespace Grammar

/-- The first defect of a list of rules, with the index of its rule; the first rule has
index `index`. -/
def firstDefect? (known : String → Bool) (index : Nat) : List Rule → Option (Nat × RuleDefect)
  | [] => none
  | r :: rest =>
    match r.defect? known with
    | some d => some (index, d)
    | none => firstDefect? known (index + 1) rest

/-- The first defect of a grammar. -/
def error? (known : String → Bool) (g : Grammar) : Option GrammarError :=
  (firstDefect? known 0 g.rules).map fun (rule, d) => .inRule g.id rule d

end Grammar

/-- Grammars that refer to each other by name, in the order in which they were given. -/
structure GrammarSet where
  grammars : List Grammar

namespace GrammarSet

/-- The first name that an earlier grammar has already. -/
def firstRepeated? (seen : List String) : List Grammar → Option String
  | [] => none
  | g :: rest => if seen.contains g.id then some g.id else firstRepeated? (g.id :: seen) rest

/-- The grammar of a name. -/
def get? (s : GrammarSet) (id : String) : Option Grammar := s.grammars.find? (·.id == id)

/-- Whether a grammar of the name is in the set. -/
def contains (s : GrammarSet) (id : String) : Bool := s.grammars.any (·.id == id)

/-- The names of the grammars. -/
def ids (s : GrammarSet) : List String := s.grammars.map (·.id)

/-- The number of grammars. -/
def size (s : GrammarSet) : Nat := s.grammars.length

/-- Whether there are no grammars. -/
def isEmpty (s : GrammarSet) : Bool := s.grammars.isEmpty

/-- The set of a list of grammars, or the first defect. -/
def build (grammars : List Grammar) : Except GrammarError GrammarSet :=
  match firstRepeated? [] grammars with
  | some id => .error (.duplicateGrammar id)
  | none =>
    let set : GrammarSet := ⟨grammars⟩
    match grammars.findSome? (·.error? set.contains) with
    | some e => .error e
    | none => .ok set

end GrammarSet

end Polylex
