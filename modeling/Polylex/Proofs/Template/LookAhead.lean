import Polylex.Proofs.Literal.Segment
import Polylex.Proofs.Template.Language

/-!
# The look-ahead finds the derivation

The end of a zone is found by a search that skips templates inside the zone, which in turn
are scanned with a search of their own, one level down. On the text of a derivation both
come out where the derivation says, as long as the budget is not less than the depth:

* scanning a body stops behind the closing quote and finds exactly the zones of the body
  (`Polylex.Template.Body.scanFrom_eq`);
* the search for the end of an expression passes over the expression as if it were not
  there, whatever number of braces is open (`Polylex.Template.Expr.closer_eq`).

The two are proved together, by induction on the derivation. The steps of both loops on the
first character of a text are split off: they are the same whatever comes next.
-/

namespace Polylex

namespace Template

open Literal

/-- The search that scanning a body with a budget uses. -/
def searchAt : (budget : Nat) → Option CloserSearch
  | 0 => none
  | budget + 1 => some (findCloser budget)

theorem scanBody_eq (budget : Nat) (host : Host) (offset : Nat) (t : Text) :
    scanBody budget host offset t = scanFrom (searchAt budget) host 0 false offset t := by
  cases budget <;> rfl

/-- The template that starts at an offset. -/
def host (q : Char) (origin : Nat) : Host := Host.ofDelimited (literal q) origin [literal q]

/-- The zone of an expression at an offset. -/
def zoneAt (offset : Nat) (body : Text) : Zone :=
  ⟨offset, ['$', '\x7b'], body, ['\x7d'], none⟩

theorem zoneAt_stop (offset : Nat) (body : Text) :
    (zoneAt offset body).stop = offset + 2 + body.width + 1 := rfl

/-- The zones of a body at an offset. -/
def Body.zones (q : Char) (offset : Nat) : Body → List Zone
  | .nil => []
  | .plain c rest => rest.zones q (offset + c.utf8Size)
  | .escaped c rest => rest.zones q (offset + 1 + c.utf8Size)
  | .zone e rest =>
    zoneAt offset (e.text q) :: rest.zones q (offset + 2 + (e.text q).width + 1)

theorem isPrefixOf_singleton {a c : Char} {t : Text} : [a].isPrefixOf (c :: t) = (a == c) := by
  rw [List.isPrefixOf_cons_cons, List.isPrefixOf_nil_left, Bool.and_true]

variable {q c : Char} {origin budget depth offset : Nat} {t r body : Text}
variable {search : Option CloserSearch} {scan : BodyScanner}

/-! ### Scanning a body, step by step -/

theorem closingLength?_quote : (host q origin).closingLength? (q :: t) = some 1 := by
  have hbegins : [q].isPrefixOf (q :: t) = true := by rw [isPrefixOf_singleton, beq_self_eq_true]
  exact if_pos hbegins

theorem closingLength?_of_ne (h : c ≠ q) : (host q origin).closingLength? (c :: t) = none := by
  have hbegins : ¬[q].isPrefixOf (c :: t) = true := by
    rw [isPrefixOf_singleton, beq_iff_eq]
    exact h.symm
  exact if_neg hbegins

theorem scanFrom_quote :
    scanFrom search (host q origin) 0 false offset (q :: t) = ⟨1, true, [], []⟩ := by
  rw [scanFrom, closingLength?_quote]

theorem scanFrom_escaped (hq : IsQuote q) :
    scanFrom search (host q origin) 0 false offset ('\\' :: c :: t) =
      (scanFrom search (host q origin) 0 false (offset + 1 + c.utf8Size) t).laterBy 2 := by
  have hescape : (host q origin).escape = some '\\' := rfl
  rw [scanFrom, closingLength?_of_ne hq.1.symm, hescape]
  rfl

/-- A character of a body that opens nothing is passed over. -/
theorem scanFrom_plain (hquote : c ≠ q) (hescape : c ≠ '\\')
    (hopen : ¬['$', '\x7b'].isPrefixOf (c :: t) = true) :
    scanFrom search (host q origin) 0 false offset (c :: t) =
      (scanFrom search (host q origin) 0 false (offset + c.utf8Size) t).laterBy 1 := by
  have hnone : opening? search (host q origin) offset (c :: t) (host q origin).forms = none :=
    if_neg hopen
  have hne : ¬(host q origin).escape = some c := by
    rintro heq
    exact hescape (Option.some.inj heq).symm
  have hmultiline : (host q origin).multiline = true := rfl
  rw [scanFrom, closingLength?_of_ne hquote]
  dsimp only
  rw [if_neg hne, hmultiline, Bool.not_true, Bool.and_false, if_neg Bool.false_ne_true,
    if_neg Bool.false_ne_true, hnone]
  rfl

/-- Where the end of an expression is found, its opening delimiter makes a zone. -/
theorem opening?_of_find {find : CloserSearch} {h : Host} {o e : Text} {g : Option String}
    {l : List Interpolation} {n : Nat} (hopen : o.isPrefixOf t = true)
    (hfind : find e (if g.isNone then h.literals else []) h (offset + o.width)
      (t.drop o.length) = some n) :
    opening? (some find) h offset t (.braced o e g :: l) =
      some (.zone ⟨offset, o, (t.drop o.length).take n, e, g⟩) := by
  rw [opening?.eq_def]
  dsimp only
  rw [if_pos hopen, hfind]

/-- An expression whose end is found is a zone, and the scan goes on behind it. -/
theorem scanFrom_zone (hq : IsQuote q)
    (hfind : findCloser budget ['\x7d'] [literal q] (host q origin) (offset + 2)
      (body ++ '\x7d' :: t) = some body.length) :
    scanFrom (searchAt (budget + 1)) (host q origin) 0 false offset
        ('$' :: '\x7b' :: (body ++ '\x7d' :: t)) =
      ((scanFrom (searchAt (budget + 1)) (host q origin) 0 false
        (offset + 2 + body.width + 1) t).laterBy (body.length + 3)).addZone
          (zoneAt offset body) := by
  have htext : '$' :: '\x7b' :: (body ++ '\x7d' :: t) = (zoneAt offset body).text ++ t := by
    simp [Zone.text, zoneAt]
  have hlength : (zoneAt offset body).text.length = body.length + 3 := by
    simp [Zone.text, zoneAt]
  have hwidth : offset + (zoneAt offset body).text.width = offset + 2 + body.width + 1 :=
    (zoneAt offset body).start_add_width_text
  have hopening : opening? (searchAt (budget + 1)) (host q origin) offset
      ('$' :: '\x7b' :: (body ++ '\x7d' :: t)) (host q origin).forms =
        some (.zone (zoneAt offset body)) := by
    have hopen : ['$', '\x7b'].isPrefixOf ('$' :: '\x7b' :: (body ++ '\x7d' :: t)) = true := rfl
    have hbody : (body ++ '\x7d' :: t).take body.length = body := List.take_left
    have hzone := opening?_of_find (g := none) (l := []) hopen hfind
    refine Eq.trans hzone ?_
    exact congrArg (fun b => some (Opening.zone (zoneAt offset b))) hbody
  have hescape : (host q origin).escape = some '\\' := rfl
  have hfeed : ¬(decide ('$' = '\n') && !(host q origin).multiline) = true := Bool.false_ne_true
  rw [scanFrom, closingLength?_of_ne hq.2.1.symm, hescape]
  dsimp only
  rw [if_neg (by decide), if_neg hfeed, if_neg Bool.false_ne_true, hopening]
  dsimp only
  rw [← Zone.length_text, scanFrom_pass htext (by simp [Zone.text, zoneAt]), hwidth, hlength]

/-! ### Searching the end of an expression, step by step -/

/-- The search for the end of an expression, from a place where some braces are open. -/
abbrev closer (scan : BodyScanner) (q : Char) (origin depth offset : Nat) (t : Text) :
    Option Nat :=
  closerFrom scan ['\x7d'] [literal q] (host q origin) 0 depth offset t

theorem nestedLiteral?_quote :
    nestedLiteral? [literal q] (host q origin) offset (q :: t) = some (host q offset, [q]) := by
  have hfind : [literal q].find? (·.opener.isPrefixOf (q :: t)) = some (literal q) := by
    rw [List.find?_cons]
    simp [literal]
  rw [nestedLiteral?, hfind]
  rfl

theorem nestedLiteral?_of_ne (h : c ≠ q) :
    nestedLiteral? [literal q] (host q origin) offset (c :: t) = none := by
  have hbegins : [q].isPrefixOf (c :: t) = false := by
    rw [isPrefixOf_singleton]
    exact beq_false_of_ne h.symm
  have hfind : [literal q].find? (·.opener.isPrefixOf (c :: t)) = none := by
    rw [List.find?_cons, literal]
    dsimp only
    rw [hbegins]
    rfl
  have hopener : (host q origin).opener = some [q] := rfl
  rw [nestedLiteral?, hfind, hopener]
  dsimp only
  rw [if_neg (by rw [hbegins]; exact Bool.false_ne_true)]

theorem closer_close : closer scan q origin 0 offset ('\x7d' :: t) = some 0 := rfl

theorem closer_closeBrace :
    closer scan q origin (depth + 1) offset ('\x7d' :: t) =
      (closer scan q origin depth (offset + 1) t).map (· + 1) := rfl

theorem isPrefixOf_brace_of_ne (h : c ≠ '\x7d') : ¬['\x7d'].isPrefixOf (c :: t) = true := by
  rw [isPrefixOf_singleton, beq_iff_eq]
  exact h.symm

theorem closer_openBrace (hq : IsQuote q) :
    closer scan q origin depth offset ('\x7b' :: t) =
      (closer scan q origin (depth + 1) (offset + 1) t).map (· + 1) := by
  rw [closer, closerFrom.eq_def]
  dsimp only
  rw [if_neg (isPrefixOf_brace_of_ne (by decide)), nestedLiteral?_of_ne hq.2.2.1.symm]
  rfl

theorem closer_plain (hquote : c ≠ q) (hopen : c ≠ '\x7b') (hclose : c ≠ '\x7d') :
    closer scan q origin depth offset (c :: t) =
      (closer scan q origin depth (offset + c.utf8Size) t).map (· + 1) := by
  have hbracket : ¬openingBracket? ['\x7d'] = some c := by
    intro heq
    exact hopen (Option.some.inj heq).symm
  rw [closer, closerFrom.eq_def]
  dsimp only
  rw [if_neg (isPrefixOf_brace_of_ne hclose), nestedLiteral?_of_ne hquote]
  dsimp only
  rw [if_neg hbracket]

/-- A template inside the expression is passed over, if the scan of its body finds its
end. -/
theorem closer_template (hq : IsQuote q) {zones : List Zone}
    (hscan : scan (host q offset) (offset + q.utf8Size) (body ++ q :: r) =
      ⟨body.length + 1, true, zones, []⟩) :
    closer scan q origin depth offset (q :: (body ++ q :: r)) =
      (closer scan q origin depth (offset + q.utf8Size + body.width + q.utf8Size) r).map
        (· + (body.length + 2)) := by
  have htext : q :: (body ++ q :: r) = (q :: (body ++ [q])) ++ r := by simp
  have hlength : (q :: (body ++ [q])).length = body.length + 2 := by simp
  have hskip : [q].length + (body.length + 1) - 1 = (q :: (body ++ [q])).length - 1 := by
    rw [hlength, List.length_singleton]
    omega
  have hwidth : offset + Text.width (q :: (body ++ [q])) =
      offset + q.utf8Size + body.width + q.utf8Size := by simp [Nat.add_assoc]
  rw [closer, closerFrom.eq_def]
  dsimp only
  rw [if_neg (isPrefixOf_brace_of_ne hq.2.2.2), nestedLiteral?_quote]
  dsimp only
  have hstart : offset + Text.width [q] = offset + q.utf8Size := rfl
  have hdrop : (q :: (body ++ q :: r)).drop [q].length = body ++ q :: r := rfl
  rw [hstart, hdrop, hscan]
  dsimp only
  rw [if_pos rfl, hskip, closerFrom_pass htext (List.cons_ne_nil _ _), hwidth, hlength]

/-! ### Along the derivation -/

theorem not_opens_of_wellFormed (hq : IsQuote q) {rest : Body}
    (h : c = '$' → rest.opensBrace = false) :
    ¬['$', '\x7b'].isPrefixOf (c :: (rest.text q ++ q :: r)) = true := by
  rw [List.isPrefixOf_cons_cons, Bool.and_eq_true, beq_iff_eq]
  rintro ⟨rfl, hbrace⟩
  have hrest := h rfl
  -- What follows the `$` is the first character of the rest, or the closing quote.
  cases rest with
  | nil =>
    rw [Body.text, List.nil_append, isPrefixOf_singleton, beq_iff_eq] at hbrace
    exact hq.2.2.1 hbrace.symm
  | plain d rest =>
    rw [Body.text, List.cons_append, isPrefixOf_singleton, beq_iff_eq] at hbrace
    rw [Body.opensBrace, ← hbrace] at hrest
    cases hrest
  | escaped d rest => cases hbrace
  | zone e rest => cases hbrace

mutual
/-- **Scanning a body finds the body.** -/
theorem Body.scanFrom_eq (hq : IsQuote q) :
    ∀ (b : Body) (origin : Nat) {budget offset : Nat} (r : Text), b.WellFormed q →
      b.depth ≤ budget →
      scanFrom (searchAt budget) (host q origin) 0 false offset (b.text q ++ q :: r) =
        ⟨(b.text q).length + 1, true, b.zones q offset, []⟩
  | .nil, _, _, _, _, _, _ => scanFrom_quote
  | .plain c rest, origin, _, _, r, hwf, hdepth => by
    obtain ⟨hquote, hescape, hbrace, hrest⟩ := hwf
    rw [Body.text, List.cons_append,
      scanFrom_plain hquote hescape (not_opens_of_wellFormed hq hbrace),
      rest.scanFrom_eq hq origin r hrest hdepth]
    rfl
  | .escaped c rest, origin, _, _, r, hwf, hdepth => by
    rw [Body.text, List.cons_append, List.cons_append, scanFrom_escaped hq,
      rest.scanFrom_eq hq origin r hwf hdepth]
    rfl
  | .zone e rest, origin, budget, offset, r, hwf, hdepth => by
    obtain ⟨he, hrest⟩ := hwf
    obtain ⟨hdeep, hdepth⟩ := Nat.max_le.mp hdepth
    -- The depth of a template with a zone is positive, so there is budget for a search.
    obtain ⟨budget, rfl⟩ := Nat.exists_eq_add_one.mpr (Nat.lt_of_lt_of_le (Nat.succ_pos _) hdeep)
    have hfind : findCloser budget ['\x7d'] [literal q] (host q origin) (offset + 2)
        (e.text q ++ '\x7d' :: (rest.text q ++ q :: r)) = some (e.text q).length := by
      have hpass := e.closer_eq hq origin 0 (offset + 2) ('\x7d' :: (rest.text q ++ q :: r)) he
        (Nat.le_of_succ_le_succ hdeep)
      rw [closer_close, Option.map_some, Nat.zero_add] at hpass
      exact hpass
    have htext : (Body.zone e rest).text q ++ q :: r =
        '$' :: '\x7b' :: (e.text q ++ '\x7d' :: (rest.text q ++ q :: r)) := by
      simp [Body.text]
    have hlength : (rest.text q).length + 1 + ((e.text q).length + 3) =
        ((Body.zone e rest).text q).length + 1 := by
      simp only [Body.text, List.length_cons, List.length_append]
      omega
    rw [htext, scanFrom_zone hq hfind, rest.scanFrom_eq hq origin r hrest hdepth, ← hlength]
    rfl

/-- **The search for the end of an expression passes over the expression.** -/
theorem Expr.closer_eq (hq : IsQuote q) :
    ∀ (e : Expr) (origin : Nat) {budget : Nat} (depth offset : Nat) (r : Text), e.WellFormed q →
      e.depth ≤ budget →
      closer (scanBody budget) q origin depth offset (e.text q ++ r) =
        (closer (scanBody budget) q origin depth (offset + (e.text q).width) r).map
          (· + (e.text q).length)
  | .nil, _, _, _, _, _, _, _ => by simp [Expr.text]
  | .plain c rest, origin, _, depth, offset, r, hwf, hdepth => by
    obtain ⟨hquote, hopen, hclose, hrest⟩ := hwf
    rw [Expr.text, List.cons_append, closer_plain hquote hopen hclose,
      rest.closer_eq hq origin depth _ r hrest hdepth, Option.map_map, Text.width_cons,
      Nat.add_assoc]
    rfl
  | .braces e rest, origin, budget, depth, offset, r, hwf, hdepth => by
    obtain ⟨he, hrest⟩ := hwf
    obtain ⟨hdeep, hdepth⟩ := Nat.max_le.mp hdepth
    have hlength : ((Expr.braces e rest).text q).length =
        (rest.text q).length + 1 + (e.text q).length + 1 := by
      simp only [Expr.text, List.length_cons, List.length_append]
      omega
    rw [Expr.text_braces_append, closer_openBrace hq,
      e.closer_eq hq origin (depth + 1) _ _ he hdeep, closer_closeBrace,
      rest.closer_eq hq origin depth _ r hrest hdepth, Expr.add_width_braces, hlength]
    simp only [Option.map_map, Function.comp_def, Nat.add_assoc]
  | .template b rest, origin, budget, depth, offset, r, hwf, hdepth => by
    obtain ⟨hb, hrest⟩ := hwf
    obtain ⟨hdeep, hdepth⟩ := Nat.max_le.mp hdepth
    -- The search skips a template with the budget it has itself, not with one less.
    have hscan : scanBody budget (host q offset) (offset + q.utf8Size)
        (b.text q ++ q :: (rest.text q ++ r)) =
          ⟨(b.text q).length + 1, true, b.zones q (offset + q.utf8Size), []⟩ := by
      rw [scanBody_eq]
      exact b.scanFrom_eq hq offset _ hb hdeep
    have hlength : ((Expr.template b rest).text q).length =
        (rest.text q).length + ((b.text q).length + 2) := by
      simp only [Expr.text, List.length_cons, List.length_append]
      omega
    rw [Expr.text_template_append, closer_template hq hscan,
      rest.closer_eq hq origin depth _ r hrest hdepth, Expr.add_width_template, hlength]
    simp only [Option.map_map, Function.comp_def, Nat.add_assoc]
end

end Template

end Polylex
