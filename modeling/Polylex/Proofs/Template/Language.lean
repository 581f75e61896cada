import Polylex.Proofs.Run.Forest

/-!
# The language of nested templates

A template is a literal between two quotes `q` whose body holds characters, escaped
characters and expressions in `${` and `}`; an expression holds characters, expressions in
braces, and templates again. `Polylex.Template.Body` and `Polylex.Template.Expr` are the
derivations of this language, a body and an expression being read from the left; a
`Polylex.Template.Item` is a part of a document, which is a sequence of templates and
characters.

A derivation is *well formed* for a quote if its characters are those that the language
allows at their places. For every derivation there are

* its text;
* its depth, the number of levels of embedding that it needs;
* its tokens, the derivation as a forest: a template is a single token of the kind of
  strings, and if it has zones, its children are the runs of what is not in a zone, the
  delimiters of the zones, and the tokens of the expressions between them.

The grammar of the language has a single rule (`Polylex.Template.grammar`).
-/

namespace Polylex

namespace Template

open Run Token

/-! ### Derivations -/

mutual
/-- The body of a template, from the left. -/
inductive Body where
  | nil
  | plain (c : Char) (rest : Body)
  /-- A character after the escape character. -/
  | escaped (c : Char) (rest : Body)
  /-- An expression in `${` and `}`. -/
  | zone (e : Expr) (rest : Body)

/-- An expression, from the left. -/
inductive Expr where
  | nil
  | plain (c : Char) (rest : Expr)
  /-- An expression in braces. -/
  | braces (e : Expr) (rest : Expr)
  /-- A template inside the expression. -/
  | template (b : Body) (rest : Expr)
end

/-- A part of a document. -/
inductive Item where
  | plain (c : Char)
  | template (b : Body)

/-! ### Texts -/

mutual
/-- The text of a body, without the quotes. -/
def Body.text (q : Char) : Body → Text
  | .nil => []
  | .plain c rest => c :: rest.text q
  | .escaped c rest => '\\' :: c :: rest.text q
  | .zone e rest => '$' :: '\x7b' :: (e.text q ++ '\x7d' :: rest.text q)

/-- The text of an expression. -/
def Expr.text (q : Char) : Expr → Text
  | .nil => []
  | .plain c rest => c :: rest.text q
  | .braces e rest => '\x7b' :: (e.text q ++ '\x7d' :: rest.text q)
  | .template b rest => q :: (b.text q ++ q :: rest.text q)
end

/-- The text of a part of a document. -/
def Item.text (q : Char) : Item → Text
  | .plain c => [c]
  | .template b => q :: (b.text q ++ [q])

/-- The text of a document. -/
def documentText (q : Char) (items : List Item) : Text := items.flatMap (Item.text q)

section Text

variable {q : Char}

theorem Expr.text_braces_append (e rest : Expr) (r : Text) :
    (Expr.braces e rest).text q ++ r =
      '\x7b' :: (e.text q ++ '\x7d' :: (rest.text q ++ r)) := by
  rw [Expr.text, List.cons_append, List.append_assoc, List.cons_append]

theorem Expr.text_template_append (b : Body) (rest : Expr) (r : Text) :
    (Expr.template b rest).text q ++ r = q :: (b.text q ++ q :: (rest.text q ++ r)) := by
  rw [Expr.text, List.cons_append, List.append_assoc, List.cons_append]

/-- The end of a body that begins with a zone, counted from the left. -/
theorem Body.add_width_zone (e : Expr) (rest : Body) (offset : Nat) :
    offset + 2 + (e.text q).width + 1 + (rest.text q).width =
      offset + ((Body.zone e rest).text q).width := by
  have hdollar : Char.utf8Size '$' = 1 := rfl
  have hopen : Char.utf8Size '\x7b' = 1 := rfl
  have hclose : Char.utf8Size '\x7d' = 1 := rfl
  simp only [Body.text, Text.width_cons, Text.width_append, hdollar, hopen, hclose]
  omega

/-- The end of an expression in braces, counted from the left. -/
theorem Expr.add_width_braces (e rest : Expr) (offset : Nat) :
    offset + 1 + (e.text q).width + 1 + (rest.text q).width =
      offset + ((Expr.braces e rest).text q).width := by
  have hopen : Char.utf8Size '\x7b' = 1 := rfl
  have hclose : Char.utf8Size '\x7d' = 1 := rfl
  simp only [Expr.text, Text.width_cons, Text.width_append, hopen, hclose]
  omega

/-- The end of a template inside an expression, counted from the left. -/
theorem Expr.add_width_template (b : Body) (rest : Expr) (offset : Nat) :
    offset + q.utf8Size + (b.text q).width + q.utf8Size + (rest.text q).width =
      offset + ((Expr.template b rest).text q).width := by
  simp only [Expr.text, Text.width_cons, Text.width_append]
  omega

end Text

/-! ### Well-formed derivations -/

/-- Whether a body begins with an opening brace of its own. -/
def Body.opensBrace : Body → Bool
  | .plain c _ => c == '\x7b'
  | _ => false

mutual
/-- The characters of a body are neither quotes nor escapes, and a plain `$` is not directly
in front of an opening brace. -/
def Body.WellFormed (q : Char) : Body → Prop
  | .nil => True
  | .plain c rest =>
    c ≠ q ∧ c ≠ '\\' ∧ (c = '$' → rest.opensBrace = false) ∧ rest.WellFormed q
  | .escaped _ rest => rest.WellFormed q
  | .zone e rest => e.WellFormed q ∧ rest.WellFormed q

/-- The characters of an expression are neither quotes nor braces. -/
def Expr.WellFormed (q : Char) : Expr → Prop
  | .nil => True
  | .plain c rest => c ≠ q ∧ c ≠ '\x7b' ∧ c ≠ '\x7d' ∧ rest.WellFormed q
  | .braces e rest => e.WellFormed q ∧ rest.WellFormed q
  | .template b rest => b.WellFormed q ∧ rest.WellFormed q
end

/-- The characters of a document are no quotes. -/
def Item.WellFormed (q : Char) : Item → Prop
  | .plain c => c ≠ q
  | .template b => b.WellFormed q

/-! ### Depths -/

mutual
/-- The depth of a template: zero without zones, and otherwise one more than the greatest
depth of a template inside a zone. -/
def Body.depth : Body → Nat
  | .nil => 0
  | .plain _ rest => rest.depth
  | .escaped _ rest => rest.depth
  | .zone e rest => max (e.depth + 1) rest.depth

/-- The greatest depth of a template inside an expression. -/
def Expr.depth : Expr → Nat
  | .nil => 0
  | .plain _ rest => rest.depth
  | .braces e rest => max e.depth rest.depth
  | .template b rest => max b.depth rest.depth
end

/-- The depth of a part of a document. -/
def Item.depth : Item → Nat
  | .plain _ => 0
  | .template b => b.depth

/-! ### Tokens -/

/-- Whether a body has zones. -/
def Body.hasZones : Body → Bool
  | .nil => false
  | .plain _ rest => rest.hasZones
  | .escaped _ rest => rest.hasZones
  | .zone _ _ => true

/-- The token of a template: a leaf without zones. -/
def literalToken (span : Span) (hasZones : Bool) (children : List Token) : Token :=
  .node .string span (if hasZones then children else [])

mutual
/-- The children of a template from an offset in its body on, where the part of it that is
not in a zone has begun at `start`. The last such part takes the closing quote. -/
def Body.children (q : Char) (start offset : Nat) : Body → List Token
  | .nil => piece .string start (offset + q.utf8Size)
  | .plain c rest => rest.children q start (offset + c.utf8Size)
  | .escaped c rest => rest.children q start (offset + 1 + c.utf8Size)
  | .zone e rest =>
    let stop := offset + 2 + (e.text q).width
    piece .string start offset ++ .leaf .interpolationMarker ⟨offset, offset + 2⟩ ::
      e.tokens q (offset + 2) ++ .leaf .interpolationMarker ⟨stop, stop + 1⟩ ::
        rest.children q (stop + 1) (stop + 1)

/-- The tokens of an expression at an offset. -/
def Expr.tokens (q : Char) (offset : Nat) : Expr → List Token
  | .nil => []
  | .plain c rest =>
    .leaf .unclassified ⟨offset, offset + c.utf8Size⟩ :: rest.tokens q (offset + c.utf8Size)
  | .braces e rest =>
    let stop := offset + 1 + (e.text q).width
    .leaf .unclassified ⟨offset, offset + 1⟩ :: e.tokens q (offset + 1) ++
      .leaf .unclassified ⟨stop, stop + 1⟩ :: rest.tokens q (stop + 1)
  | .template b rest =>
    let stop := offset + q.utf8Size + (b.text q).width + q.utf8Size
    literalToken ⟨offset, stop⟩ b.hasZones (b.children q offset (offset + q.utf8Size)) ::
      rest.tokens q stop
end

/-- The token of a part of a document at an offset. -/
def Item.token (q : Char) (offset : Nat) : Item → Token
  | .plain c => .leaf .unclassified ⟨offset, offset + c.utf8Size⟩
  | .template b =>
    literalToken ⟨offset, offset + q.utf8Size + (b.text q).width + q.utf8Size⟩ b.hasZones
      (b.children q offset (offset + q.utf8Size))

/-- **The tokens of a document** at an offset. -/
def documentTokens (q : Char) (offset : Nat) : List Item → List Token
  | [] => []
  | item :: rest => item.token q offset :: documentTokens q (offset + (item.text q).width) rest

/-- The document `"a${b}"`. -/
example :
    documentTokens '"' 0 [.template (.plain 'a' (.zone (.plain 'b' .nil) .nil))] =
      [.node .string ⟨0, 7⟩
        [.leaf .string ⟨0, 2⟩, .leaf .interpolationMarker ⟨2, 4⟩, .leaf .unclassified ⟨4, 5⟩,
          .leaf .interpolationMarker ⟨5, 6⟩, .leaf .string ⟨6, 7⟩]] := rfl

/-! ### The grammar -/

/-- A literal between two quotes that may go over several lines and holds expressions in
`${` and `}`, in the grammar of the literal. -/
def literal (q : Char) : Delimited where
  opener := [q]
  closer := [q]
  multiline := true
  interpolations := [.braced ['$', '\x7b'] ['\x7d'] none]

/-- **A grammar whose only rule is that of the templates.** -/
def grammar (q : Char) (id : String) (reentrant : Bool) : Grammar :=
  ⟨id, [⟨.string, .delimited (literal q), none⟩], reentrant⟩

/-- The characters that may serve as a quote. -/
def IsQuote (q : Char) : Prop := q ≠ '\\' ∧ q ≠ '$' ∧ q ≠ '\x7b' ∧ q ≠ '\x7d'

end Template

end Polylex
