import Polylex.Proofs.Run.Replay
import Polylex.Proofs.Template.LookAhead
import Polylex.Proofs.Run.Session

/-!
# Nested templates are recovered

Running a document of nested templates with the grammar of the templates gives back its
derivation, token for token and without a report, whenever the limit is not less than the
depth of any of its templates (`Polylex.Template.run_document`).

The look-ahead has fixed where every template ends and where its zones are; the run now goes
into the zones with one level less. Both the text of an expression and the layout of the
children of a template follow the derivation
(`Polylex.Template.Expr.forestFrom_eq`, `Polylex.Template.Body.childrenFrom_eq`), again by
one induction for the two.
-/

namespace Polylex

/-- Tokens in front of what a computation returns. -/
def Traced.prefixed (us : List Token) (x : Traced (List Token)) : Traced (List Token) :=
  ⟨x.diagnostics, x.outcome.map (us ++ ·)⟩

namespace Traced

@[simp] theorem prefixed_nil (x : Traced (List Token)) : x.prefixed [] = x := by
  obtain ⟨ds, outcome⟩ := x
  cases outcome <;> rfl

@[simp] theorem prefixed_prefixed (us vs : List Token) (x : Traced (List Token)) :
    (x.prefixed vs).prefixed us = x.prefixed (us ++ vs) := by
  obtain ⟨ds, outcome⟩ := x
  cases outcome with
  | error e => rfl
  | ok ts => simp [prefixed, Except.map]

theorem prefixed_ok (us vs : List Token) (ds : List Diagnostic) :
    (⟨ds, .ok vs⟩ : Traced (List Token)).prefixed us = ⟨ds, .ok (us ++ vs)⟩ := rfl

end Traced

namespace Template

open Run Literal Token

variable {q c : Char} {id : String} {reentrant : Bool} {set : GrammarSet} {limit budget : Nat}
variable {stack : RegionStack} {offset start stop : Nat} {t r : Text}

/-! ### The token at the start of a text -/

theorem firstMatch_plain (h : c ≠ q) :
    (grammar q id reentrant).firstMatch budget offset (c :: t) = Match.unclassified := by
  have hbegins : ¬[q].isPrefixOf (c :: t) = true := by
    rw [isPrefixOf_singleton, beq_iff_eq]
    exact h.symm
  have hnone : matchDelimited? (literal q) [literal q] budget offset (c :: t) = none :=
    if_neg hbegins
  have hrule : Rule.match? ⟨.string, .delimited (literal q), none⟩ 0 [literal q] budget offset
      (c :: t) = none := by
    rw [Rule.match?_eq, Matcher.match?_delimited, hnone]
  have hfirst : Grammar.firstOf [literal q] budget offset (c :: t) 0
      [⟨.string, .delimited (literal q), none⟩] = none := by
    rw [Grammar.firstOf_cons, hrule]
    rfl
  exact congrArg (·.getD Match.unclassified) hfirst

/-- **A template is found whole, with its zones.** -/
theorem firstMatch_template (hq : IsQuote q) {b : Body} (hwf : b.WellFormed q)
    (hdepth : b.depth ≤ budget) (r : Text) :
    (grammar q id reentrant).firstMatch budget offset (q :: (b.text q ++ q :: r)) =
      ⟨some 0, .string, none, (b.text q).length + 2, b.zones q (offset + q.utf8Size), []⟩ := by
  have hscan : scanBody budget (host q offset) (offset + q.utf8Size) (b.text q ++ q :: r) =
      ⟨(b.text q).length + 1, true, b.zones q (offset + q.utf8Size), []⟩ := by
    rw [scanBody_eq]
    exact b.scanFrom_eq hq offset r hwf hdepth
  have hbegins : [q].isPrefixOf (q :: (b.text q ++ q :: r)) = true := by
    rw [isPrefixOf_singleton, beq_self_eq_true]
  have hmatch : matchDelimited? (literal q) [literal q] budget offset
      (q :: (b.text q ++ q :: r)) =
        some ⟨(b.text q).length + 2, b.zones q (offset + q.utf8Size), []⟩ := by
    refine (if_pos hbegins).trans ?_
    have hdrop : (q :: (b.text q ++ q :: r)).drop (literal q).opener.length =
        b.text q ++ q :: r := rfl
    have hstart : offset + (literal q).opener.width = offset + q.utf8Size := rfl
    have hlength : 1 + ((b.text q).length + 1) = (b.text q).length + 2 := by omega
    have hhost : Host.ofDelimited (literal q) offset [literal q] = host q offset := rfl
    simp only [hdrop, hstart, hhost, hscan]
    rw [← hlength]
    rfl
  have hrule : Rule.match? ⟨.string, .delimited (literal q), none⟩ 0 [literal q] budget offset
      (q :: (b.text q ++ q :: r)) = some ⟨some 0, .string, none, (b.text q).length + 2,
        b.zones q (offset + q.utf8Size), []⟩ := by
    rw [Rule.match?_eq, Matcher.match?_delimited, hmatch]
    rfl
  have hfirst : Grammar.firstOf [literal q] budget offset (q :: (b.text q ++ q :: r)) 0
      [⟨.string, .delimited (literal q), none⟩] = some ⟨some 0, .string, none,
        (b.text q).length + 2, b.zones q (offset + q.utf8Size), []⟩ := by
    rw [Grammar.firstOf_cons, hrule]
  exact congrArg (·.getD Match.unclassified) hfirst

/-! ### One token of a run -/

/-- A token that reports nothing and does nothing to the regions comes in front of the
tokens after it. -/
theorem forestFrom_token {embedded : Embedded} {p : Text} {found : Match} {u : Token}
    (hp : p ≠ []) (hfound : stack.current.firstMatch budget offset (p ++ r) = found)
    (hlength : p.length = found.length) (haction : found.action = none)
    (hquiet : found.diagnostics = [])
    (hsplice : splice set embedded stack.current (RawToken.ofMatch found offset (p ++ r)) =
      ⟨[], .ok u⟩) :
    forestFrom set budget embedded false 0 stack offset (p ++ r) =
      (forestFrom set budget embedded false 0 stack (offset + p.width) r).prefixed [u] := by
  have haction' : (RawToken.ofMatch found offset (p ++ r)).action = none := haction
  rw [forestFrom_step hp hfound hlength, hquiet]
  dsimp only
  rw [hsplice, haction']
  simp only [Traced.report, act, Traced.pure_eq, Traced.bind_ok, List.nil_append]
  generalize forestFrom set budget embedded false 0 stack (offset + p.width) r = rest
  obtain ⟨ds, outcome⟩ := rest
  cases outcome <;> simp [Traced.prefixed, Except.map]

theorem forestFrom_plain (hstack : stack.current = grammar q id reentrant) (h : c ≠ q)
    (embedded : Embedded) (r : Text) :
    forestFrom set budget embedded false 0 stack offset (c :: r) =
      (forestFrom set budget embedded false 0 stack (offset + c.utf8Size) r).prefixed
        [.leaf .unclassified ⟨offset, offset + c.utf8Size⟩] := by
  have hfound : stack.current.firstMatch budget offset ([c] ++ r) = Match.unclassified := by
    rw [hstack]
    exact firstMatch_plain h
  exact forestFrom_token (List.cons_ne_nil c []) hfound rfl rfl rfl rfl

theorem Body.isEmpty_zones : ∀ (b : Body) (offset : Nat),
    (b.zones q offset).isEmpty = !b.hasZones
  | .nil, _ => rfl
  | .plain _ rest, _ => rest.isEmpty_zones _
  | .escaped _ rest, _ => rest.isEmpty_zones _
  | .zone _ _, _ => rfl

/-- A template comes in front of the tokens after it, if its children are laid out as its
body says. -/
theorem forestFrom_template (hq : IsQuote q) (hstack : stack.current = grammar q id reentrant)
    {embedded : Embedded} {b : Body} (hwf : b.WellFormed q) (hdepth : b.depth ≤ budget)
    (hchildren : childrenFrom set embedded (grammar q id reentrant) .string
      (offset + q.utf8Size + (b.text q).width + q.utf8Size) offset
      (b.zones q (offset + q.utf8Size)) =
        ⟨[], .ok (b.children q offset (offset + q.utf8Size))⟩) (r : Text) :
    forestFrom set budget embedded false 0 stack offset (q :: (b.text q ++ q :: r)) =
      (forestFrom set budget embedded false 0 stack
        (offset + q.utf8Size + (b.text q).width + q.utf8Size) r).prefixed
          [literalToken ⟨offset, offset + q.utf8Size + (b.text q).width + q.utf8Size⟩ b.hasZones
            (b.children q offset (offset + q.utf8Size))] := by
  have htext : q :: (b.text q ++ q :: r) = (q :: (b.text q ++ [q])) ++ r := by simp
  have hlength : (q :: (b.text q ++ [q])).length = (b.text q).length + 2 := by simp
  have hwidth : offset + Text.width (q :: (b.text q ++ [q])) =
      offset + q.utf8Size + (b.text q).width + q.utf8Size := by simp [Nat.add_assoc]
  have hfound : stack.current.firstMatch budget offset ((q :: (b.text q ++ [q])) ++ r) =
      ⟨some 0, .string, none, (b.text q).length + 2, b.zones q (offset + q.utf8Size), []⟩ := by
    rw [← htext, hstack]
    exact firstMatch_template hq hwf hdepth r
  have hraw : RawToken.ofMatch ⟨some 0, .string, none, (b.text q).length + 2,
      b.zones q (offset + q.utf8Size), []⟩ offset ((q :: (b.text q ++ [q])) ++ r) =
        ⟨.string, ⟨offset, offset + q.utf8Size + (b.text q).width + q.utf8Size⟩, some 0, none,
          b.zones q (offset + q.utf8Size)⟩ := by
    rw [RawToken.ofMatch, ← hlength, List.take_left, hwidth]
  have hsplice : splice set embedded stack.current (RawToken.ofMatch ⟨some 0, .string, none,
      (b.text q).length + 2, b.zones q (offset + q.utf8Size), []⟩ offset
        ((q :: (b.text q ++ [q])) ++ r)) =
      ⟨[], .ok (literalToken ⟨offset, offset + q.utf8Size + (b.text q).width + q.utf8Size⟩
        b.hasZones (b.children q offset (offset + q.utf8Size)))⟩ := by
    rw [hraw, hstack, splice, Body.isEmpty_zones]
    cases b.hasZones with
    | false => rfl
    | true =>
      rw [Bool.not_true, if_neg Bool.false_ne_true, hchildren]
      rfl
  rw [htext, forestFrom_token (List.cons_ne_nil _ _) hfound hlength rfl rfl hsplice, hwidth]

/-! ### Along the derivation -/

/-- An expression without text has no tokens. -/
theorem Expr.tokens_of_text_eq_nil {e : Expr} (h : e.text q = []) : e.tokens q offset = [] := by
  cases e <;> first | rfl | cases h

/-- At the end of a text without regions there is nothing to do. -/
theorem forestFrom_start_nil {embedded : Embedded} {g : Grammar} :
    forestFrom set budget embedded false 0 (RegionStack.start g start limit) offset [] =
      ⟨[], .ok []⟩ := rfl

/-- The tokens of the expression of a zone, if it is run as a text of its own. -/
theorem expressionTokens_zoneAt {g : Grammar} {body : Text} {us : List Token}
    (hnil : body = [] → us = [])
    (hrun : forest set limit budget false g (offset + 2) body = ⟨[], .ok us⟩) :
    expressionTokens set (below set limit (budget + 1)) g (zoneAt offset body) =
      ⟨[], .ok us⟩ := by
  rw [expressionTokens]
  by_cases hempty : body = []
  · subst hempty
    rw [hnil rfl]
    rfl
  · have hne : ¬(zoneAt offset body).body.isEmpty = true := by
      rw [List.isEmpty_iff]
      exact hempty
    rw [if_neg hne]
    exact hrun

/-- A zone is laid out as the piece in front of it, its delimiters, and its tokens between
them. -/
theorem childrenFrom_zoneAt {embedded : Embedded} {g : Grammar} {body : Text} {zs : List Zone}
    {us vs : List Token}
    (hinner : expressionTokens set embedded g (zoneAt offset body) = ⟨[], .ok us⟩)
    (hafter : childrenFrom set embedded g .string stop (offset + 2 + body.width + 1) zs =
      ⟨[], .ok vs⟩) :
    childrenFrom set embedded g .string stop start (zoneAt offset body :: zs) =
      ⟨[], .ok (piece .string start offset ++
        .leaf .interpolationMarker ⟨offset, offset + 2⟩ :: us ++
          .leaf .interpolationMarker
            ⟨offset + 2 + body.width, offset + 2 + body.width + 1⟩ :: vs)⟩ := by
  have hmarker : piece .interpolationMarker (zoneAt offset body).bodyStop
      (offset + 2 + body.width + 1) = [.leaf .interpolationMarker
        ⟨offset + 2 + body.width, offset + 2 + body.width + 1⟩] :=
    if_pos (Nat.lt_succ_self _)
  have hopener : (zoneAt offset body).openerSpan = ⟨offset, offset + 2⟩ := rfl
  have hstart : (zoneAt offset body).start = offset := rfl
  rw [childrenFrom, hinner, zoneAt_stop, hafter, hmarker, hopener, hstart]
  simp

mutual
/-- **The children of a template are laid out as its body says.** -/
theorem Body.childrenFrom_eq (hq : IsQuote q) :
    ∀ (b : Body) {budget start offset stop : Nat}, b.WellFormed q → b.depth ≤ budget →
      stop = offset + (b.text q).width + q.utf8Size →
      childrenFrom set (below set limit budget) (grammar q id reentrant) .string stop start
        (b.zones q offset) = ⟨[], .ok (b.children q start offset)⟩
  | .nil, _, _, _, _, _, _, hstop => by
    rw [Body.zones, childrenFrom, Body.children, hstop]
    rfl
  | .plain c rest, _, _, offset, _, hwf, hdepth, hstop => by
    rw [Body.text, Text.width_cons, ← Nat.add_assoc] at hstop
    exact rest.childrenFrom_eq hq hwf.2.2.2 hdepth hstop
  | .escaped c rest, _, _, offset, _, hwf, hdepth, hstop => by
    have hescape : Char.utf8Size '\\' = 1 := rfl
    rw [Body.text, Text.width_cons, Text.width_cons, hescape, ← Nat.add_assoc, ← Nat.add_assoc]
      at hstop
    exact rest.childrenFrom_eq hq hwf hdepth hstop
  | .zone e rest, budget, start, offset, stop, hwf, hdepth, hstop => by
    obtain ⟨he, hrest⟩ := hwf
    obtain ⟨hdeep, hdepth⟩ := Nat.max_le.mp hdepth
    -- The expression is run with the budget with which its end was searched.
    obtain ⟨budget, rfl⟩ := Nat.exists_eq_add_one.mpr (Nat.lt_of_lt_of_le (Nat.succ_pos _) hdeep)
    have hinner : expressionTokens set (below set limit (budget + 1)) (grammar q id reentrant)
        (zoneAt offset (e.text q)) = ⟨[], .ok (e.tokens q (offset + 2))⟩ := by
      refine expressionTokens_zoneAt Expr.tokens_of_text_eq_nil ?_
      have hrun : forestFrom set budget (below set limit budget) false 0
          (RegionStack.start (grammar q id reentrant) (offset + 2) limit) (offset + 2)
          (e.text q ++ []) = _ :=
        e.forestFrom_eq hq [] he (Nat.le_of_succ_le_succ hdeep) rfl
      rw [List.append_nil, forestFrom_start_nil, Traced.prefixed_ok, List.append_nil] at hrun
      rw [forest_eq, hrun]
    rw [← Body.add_width_zone] at hstop
    have hafter : childrenFrom set (below set limit (budget + 1)) (grammar q id reentrant) .string
        stop (offset + 2 + (e.text q).width + 1)
        (rest.zones q (offset + 2 + (e.text q).width + 1)) =
          ⟨[], .ok (rest.children q (offset + 2 + (e.text q).width + 1)
            (offset + 2 + (e.text q).width + 1))⟩ :=
      rest.childrenFrom_eq hq hrest hdepth hstop
    exact childrenFrom_zoneAt hinner hafter

/-- **An expression comes in front of the tokens after it.** -/
theorem Expr.forestFrom_eq (hq : IsQuote q) :
    ∀ (e : Expr) {budget offset : Nat} {stack : RegionStack} (r : Text), e.WellFormed q →
      e.depth ≤ budget → stack.current = grammar q id reentrant →
      forestFrom set budget (below set limit budget) false 0 stack offset (e.text q ++ r) =
        (forestFrom set budget (below set limit budget) false 0 stack
          (offset + (e.text q).width) r).prefixed (e.tokens q offset)
  | .nil, _, _, _, _, _, _, _ => by simp [Expr.text, Expr.tokens]
  | .plain c rest, _, offset, _, r, hwf, hdepth, hstack => by
    obtain ⟨hquote, -, -, hrest⟩ := hwf
    rw [Expr.text, List.cons_append, forestFrom_plain hstack hquote,
      rest.forestFrom_eq hq r hrest hdepth hstack, Traced.prefixed_prefixed, Text.width_cons,
      Nat.add_assoc]
    rfl
  | .braces e rest, budget, offset, _, r, hwf, hdepth, hstack => by
    obtain ⟨he, hrest⟩ := hwf
    obtain ⟨hdeep, hdepth⟩ := Nat.max_le.mp hdepth
    -- To the run braces are characters like others; only the search counts them.
    have hopen : Char.utf8Size '\x7b' = 1 := rfl
    have hclose : Char.utf8Size '\x7d' = 1 := rfl
    rw [Expr.text_braces_append, forestFrom_plain hstack hq.2.2.1.symm, hopen,
      e.forestFrom_eq hq _ he hdeep hstack, forestFrom_plain hstack hq.2.2.2.symm, hclose,
      rest.forestFrom_eq hq r hrest hdepth hstack, Expr.add_width_braces]
    simp [Expr.tokens]
  | .template b rest, budget, offset, _, r, hwf, hdepth, hstack => by
    obtain ⟨hb, hrest⟩ := hwf
    obtain ⟨hdeep, hdepth⟩ := Nat.max_le.mp hdepth
    rw [Expr.text_template_append,
      forestFrom_template hq hstack hb hdeep (b.childrenFrom_eq hq hb hdeep rfl),
      rest.forestFrom_eq hq r hrest hdepth hstack, Expr.add_width_template]
    simp [Expr.tokens]
end

/-! ### Documents -/

/-- A part of a document comes in front of the tokens after it. -/
theorem Item.forestFrom_eq (hq : IsQuote q) (item : Item) (hwf : item.WellFormed q)
    (hdepth : item.depth ≤ budget) (hstack : stack.current = grammar q id reentrant) (r : Text) :
    forestFrom set budget (below set limit budget) false 0 stack offset (item.text q ++ r) =
      (forestFrom set budget (below set limit budget) false 0 stack
        (offset + (item.text q).width) r).prefixed [item.token q offset] := by
  cases item with
  | plain c => exact forestFrom_plain hstack hwf _ r
  | template b =>
    have htext : (Item.template b).text q ++ r = q :: (b.text q ++ q :: r) := by simp [Item.text]
    have hwidth : offset + ((Item.template b).text q).width =
        offset + q.utf8Size + (b.text q).width + q.utf8Size := by
      simp [Item.text, Nat.add_assoc]
    rw [htext, hwidth,
      forestFrom_template hq hstack hwf hdepth (b.childrenFrom_eq hq hwf hdepth rfl)]
    rfl

theorem forestFrom_document (hq : IsQuote q) {items : List Item}
    (hwf : ∀ item ∈ items, item.WellFormed q) (hdepth : ∀ item ∈ items, item.depth ≤ budget)
    (hstack : stack.current = grammar q id reentrant) (r : Text) :
    forestFrom set budget (below set limit budget) false 0 stack offset
        (documentText q items ++ r) =
      (forestFrom set budget (below set limit budget) false 0 stack
        (offset + (documentText q items).width) r).prefixed (documentTokens q offset items) := by
  induction items generalizing offset with
  | nil => simp [documentText, documentTokens]
  | cons item rest ih =>
    obtain ⟨hitem, hrest⟩ := List.forall_mem_cons.mp hwf
    obtain ⟨hdeep, hdepth⟩ := List.forall_mem_cons.mp hdepth
    have htext : documentText q (item :: rest) = item.text q ++ documentText q rest := rfl
    rw [htext, List.append_assoc, item.forestFrom_eq hq hitem hdeep hstack, ih hrest hdepth,
      Traced.prefixed_prefixed, Text.width_append, Nat.add_assoc]
    rfl

/-- **The run over a document**, at every offset and with every budget that is not less than
the depth of its templates. -/
theorem forest_document (hq : IsQuote q) {items : List Item}
    (hwf : ∀ item ∈ items, item.WellFormed q) (hdepth : ∀ item ∈ items, item.depth ≤ budget) :
    forest set limit budget false (grammar q id reentrant) offset (documentText q items) =
      ⟨[], .ok (documentTokens q offset items)⟩ := by
  have hpass : forestFrom set budget (below set limit budget) false 0
      (RegionStack.start (grammar q id reentrant) offset limit) offset
      (documentText q items ++ []) = _ :=
    forestFrom_document hq hwf hdepth rfl []
  rw [List.append_nil, forestFrom_start_nil, Traced.prefixed_ok, List.append_nil] at hpass
  rw [forest_eq, hpass]

/-- **Nested templates are recovered.** Take a quote, a grammar whose only rule is that of
the templates, and a document of well-formed templates and characters that are no quotes. If
no template is deeper than the limit, a run over the text of the document with the grammar
as its root returns the tokens of the derivation, and reports nothing. -/
theorem run_document (hq : IsQuote q) {s : Session} {items : List Item}
    (hgrammar : s.grammars.get? id = some (grammar q id reentrant))
    (hcancel : s.isCancelled = false) (hwf : ∀ item ∈ items, item.WellFormed q)
    (hdepth : ∀ item ∈ items, item.depth ≤ s.options.maxInterpolationDepth) :
    s.run (documentText q items) id = (.ok (documentTokens q 0 items), s) := by
  have htrace : s.trace (documentText q items) (grammar q id reentrant)
      ⟨0, (documentText q items).width⟩ 0 = ⟨[], .ok (documentTokens q 0 items)⟩ := by
    rw [Session.trace, Text.slice_all, hcancel]
    exact forest_document hq hwf hdepth
  rw [Session.run, Session.grammar_eq_ok hgrammar]
  dsimp only
  rw [Session.runRange_eq, htrace]
  simp

/-- The case of a template in a zone of a template, behind a brace that is a character of the
document: the text is `}"a${{"x${}"}}"`. -/
theorem run_document_nested :
    let s : Session :=
      { grammars := ⟨[grammar '"' "t" false]⟩, options := { maxInterpolationDepth := 2 } }
    let items : List Item :=
      [.plain '\x7d', .template (.plain 'a' (.zone (.braces
        (.template (.plain 'x' (.zone .nil .nil)) .nil) .nil) .nil))]
    (∀ item ∈ items, item.WellFormed '"') ∧
      (∀ item ∈ items, item.depth ≤ s.options.maxInterpolationDepth) ∧
      documentText '"' items =
        ['\x7d', '"', 'a', '$', '\x7b', '\x7b', '"', 'x', '$', '\x7b', '\x7d', '"', '\x7d',
          '\x7d', '"'] ∧
      s.run (documentText '"' items) "t" = (.ok (documentTokens '"' 0 items), s) := by
  intro s items
  have hq : IsQuote '"' := ⟨by decide, by decide, by decide, by decide⟩
  have hwf : ∀ item ∈ items, item.WellFormed '"' := by
    simp [items, Item.WellFormed, Body.WellFormed, Expr.WellFormed]
  have hdepth : ∀ item ∈ items, item.depth ≤ s.options.maxInterpolationDepth := by
    simp [items, s, Item.depth, Body.depth, Expr.depth]
  exact ⟨hwf, hdepth, rfl, run_document hq rfl rfl hwf hdepth⟩

end Template

end Polylex
