import Mathlib.Data.List.Chain
import Polylex.Proofs.Merging.Coverage

/-!
# What the coverage check accepts

The check carries one offset through a forest and stops at the first token that does not start
there. What it accepts can be said without an offset that moves. Spans *fill* a range
(`Polylex.Span.Fills`) if none of them is empty, each ends where the next one starts, the first
starts where the range does and the last ends where it does; without any span the range is empty.
A forest *partitions* a range (`Polylex.Token.Partitions`) if its spans fill the range and the
spans of the children of every token, at whatever level it is, fill the span of that token, if
there are any. The check accepts exactly the forests that do.

What holds of every level is inherited by the leaves, which are of all levels: they fill the
range as well (`Polylex.Token.Partitions.fills_leavesForest`). Spans that fill a range share it
out, every offset to one of them (`Polylex.Span.Fills.countP_has`), and so the pieces of a text
that they hold are what the range holds, cut up (`Polylex.Span.Fills.flatMap_slice`).
-/

namespace Polylex

/-! ### Spans that fill a range -/

namespace Span

/-- Whether an offset lies in a span. -/
def has (s : Span) (offset : Nat) : Bool := decide (s.start ≤ offset) && decide (offset < s.stop)

/-- **Spans fill a range**: they follow each other from its start to its end without gap or
overlap, and none of them is empty. -/
structure Fills (range : Span) (spans : List Span) : Prop where
  nonempty : ∀ s ∈ spans, s.start < s.stop
  touch : spans.IsChain fun s r => s.stop = r.start
  start : ∀ s ∈ spans.head?, s.start = range.start
  stop : ∀ s ∈ spans.getLast?, s.stop = range.stop
  empty : spans = [] → range.start = range.stop

variable {range s : Span} {spans spans' : List Span}

theorem fills_nil : range.Fills [] ↔ range.start = range.stop := by
  constructor
  · intro h
    exact h.empty rfl
  · intro h
    exact ⟨List.forall_mem_nil _, .nil, nofun, nofun, fun _ => h⟩

/-- Behind the first span the others fill what is left of the range. -/
theorem fills_cons :
    range.Fills (s :: spans) ↔
      s.start = range.start ∧ s.start < s.stop ∧ Fills ⟨s.stop, range.stop⟩ spans := by
  constructor
  · rintro ⟨hnonempty, htouch, hstart, hstop, -⟩
    obtain ⟨hs, hspans⟩ := List.forall_mem_cons.mp hnonempty
    refine ⟨hstart s rfl, hs, ⟨hspans, htouch.tail, ?_, ?_, ?_⟩⟩
    · intro r hr
      exact (List.isChain_cons.mp htouch).1 r hr |>.symm
    · intro r hr
      refine hstop r ?_
      rw [List.getLast?_cons, hr]
      rfl
    · rintro rfl
      exact hstop s rfl
  · rintro ⟨hstart, hlt, hnonempty, htouch, hnext, hstop, hempty⟩
    refine ⟨List.forall_mem_cons.mpr ⟨hlt, hnonempty⟩,
      List.isChain_cons.mpr ⟨fun r hr => (hnext r hr).symm, htouch⟩, ?_, ?_, nofun⟩
    · rintro r ⟨⟩
      exact hstart
    · intro r hr
      rw [List.getLast?_cons] at hr
      cases hlast : spans.getLast? with
      | none =>
        rw [hlast] at hr
        cases hr
        exact hempty (List.getLast?_eq_none_iff.mp hlast)
      | some last =>
        rw [hlast] at hr
        cases hr
        exact hstop _ hlast

namespace Fills

theorem start_le_stop (h : range.Fills spans) : range.start ≤ range.stop := by
  induction spans generalizing range with
  | nil => exact Nat.le_of_eq (fills_nil.mp h)
  | cons s spans ih =>
    obtain ⟨hstart, hlt, hrest⟩ := fills_cons.mp h
    have hle : s.stop ≤ range.stop := ih hrest
    omega

/-- Spans fill a range in two parts. -/
theorem append {start middle stop : Nat} (h : Fills ⟨start, middle⟩ spans)
    (h' : Fills ⟨middle, stop⟩ spans') : Fills ⟨start, stop⟩ (spans ++ spans') := by
  induction spans generalizing start with
  | nil =>
    obtain rfl : start = middle := fills_nil.mp h
    exact h'
  | cons s spans ih =>
    obtain ⟨hstart, hlt, hrest⟩ := fills_cons.mp h
    exact fills_cons.mpr ⟨hstart, hlt, ih hrest⟩

/-- **Spans that fill a range share it out**: an offset of the range lies in one of them, and
any other offset in none. -/
theorem countP_has (h : range.Fills spans) (offset : Nat) :
    spans.countP (·.has offset) = if range.has offset then 1 else 0 := by
  induction spans generalizing range with
  | nil =>
    have heq : range.start = range.stop := fills_nil.mp h
    rw [List.countP_nil, if_neg]
    simp only [has, Bool.and_eq_true, decide_eq_true_eq]
    omega
  | cons s spans ih =>
    obtain ⟨hstart, hlt, hrest⟩ := fills_cons.mp h
    have hle : s.stop ≤ range.stop := hrest.start_le_stop
    rw [List.countP_cons, ih hrest]
    simp only [has, Bool.and_eq_true, decide_eq_true_eq]
    -- The end of the first span decides on which side of it the offset is.
    rcases Nat.lt_or_ge offset s.stop with hfirst | hlater
    · rw [if_neg (by omega)]
      exact (Nat.zero_add _).trans (if_congr (by omega) rfl rfl)
    · rw [if_neg (by omega : ¬(s.start ≤ offset ∧ offset < s.stop))]
      exact if_congr (by omega) rfl rfl

end Fills

end Span

/-! ### Pieces of a text -/

namespace Text

variable {t : Text} {range : Span} {spans : List Span} {start middle stop : Nat}

/-- A slice is cut at a boundary. -/
theorem slice_append_slice (hstart : t.IsRange ⟨start, middle⟩) (hstop : t.IsRange ⟨middle, stop⟩) :
    t.slice ⟨start, middle⟩ ++ t.slice ⟨middle, stop⟩ = t.slice ⟨start, stop⟩ := by
  obtain ⟨⟨p, s, hp, rfl⟩, ⟨q, s', hq, rfl⟩, hpq⟩ := hstart
  obtain ⟨-, ⟨q', s'', rfl, rfl⟩, hqq'⟩ := hstop
  -- Of the three boundaries each is a beginning of the next.
  obtain ⟨m, rfl⟩ := prefix_of_width_le (hp.symm.trans hq) hpq
  obtain ⟨m', rfl⟩ := prefix_of_width_le hq.symm hqq'
  have hfirst := slice_append p m (m' ++ s'')
  have hsecond := slice_append (p ++ m) m' s''
  have hboth := slice_append p (m ++ m') s''
  simp only [List.append_assoc, width_append, Nat.add_assoc] at hfirst hsecond hboth ⊢
  rw [hfirst, hsecond, hboth]

end Text

namespace Span.Fills

variable {t : Text} {range : Span} {spans : List Span}

/-- A range that spans fill ends at a boundary if they do. -/
theorem isBoundary_stop {start stop : Nat} (h : Fills ⟨start, stop⟩ spans)
    (hstart : t.IsBoundary start) (hstops : ∀ s ∈ spans, t.IsBoundary s.stop) :
    t.IsBoundary stop := by
  induction spans generalizing start with
  | nil =>
    obtain rfl : start = stop := fills_nil.mp h
    exact hstart
  | cons s spans ih =>
    obtain ⟨-, -, hrest⟩ := fills_cons.mp h
    obtain ⟨hs, hspans⟩ := List.forall_mem_cons.mp hstops
    exact ih hrest hs hspans

/-- **The pieces at spans that fill a range spell out the range.** -/
theorem flatMap_slice (h : range.Fills spans)
    (hbounds : ∀ s ∈ spans, t.IsBoundary s.start ∧ t.IsBoundary s.stop) :
    spans.flatMap t.slice = t.slice range := by
  induction spans generalizing range with
  | nil => exact (t.slice_eq_nil (fills_nil.mp h)).symm
  | cons s spans ih =>
    obtain ⟨hstart, hlt, hrest⟩ := fills_cons.mp h
    obtain ⟨⟨hfirst, hlater⟩, hbounds⟩ := List.forall_mem_cons.mp hbounds
    have hstop : t.IsBoundary range.stop :=
      hrest.isBoundary_stop hlater fun r hr => (hbounds r hr).2
    calc (s :: spans).flatMap t.slice
        = t.slice ⟨s.start, s.stop⟩ ++ t.slice ⟨s.stop, range.stop⟩ := by
          rw [List.flatMap_cons, ih hrest hbounds]
      _ = t.slice ⟨s.start, range.stop⟩ :=
          Text.slice_append_slice ⟨hfirst, hlater, hlt.le⟩ ⟨hlater, hstop, hrest.start_le_stop⟩
      _ = t.slice range := by rw [hstart]

end Span.Fills

/-! ### Forests that partition a range -/

namespace Token

variable {u : Token} {us : List Token} {expected stop : Nat}

/-- **A forest partitions a range**: its spans fill the range, and so do the spans of the
children of a token that has any, at every level, with the span of the token. -/
structure Partitions (range : Span) (forest : List Token) : Prop where
  top : range.Fills (forest.map Token.span)
  inside : ∀ u, Occurs u forest → u.children ≠ [] → u.span.Fills (u.children.map Token.span)

theorem partitions_nil : Partitions ⟨expected, stop⟩ [] ↔ expected = stop := by
  constructor
  · rintro ⟨htop, -⟩
    exact Span.fills_nil.mp htop
  · intro h
    exact ⟨Span.fills_nil.mpr h, fun u hu => absurd hu not_occurs_nil⟩

/-- The first token and what is inside it, and the tokens behind it, are partitioned each on
their own. -/
theorem partitions_cons :
    Partitions ⟨expected, stop⟩ (u :: us) ↔
      u.span.start = expected ∧ u.span.start < u.span.stop ∧
        (u.children = [] ∨ Partitions u.span u.children) ∧ Partitions ⟨u.span.stop, stop⟩ us := by
  constructor
  · rintro ⟨htop, hinside⟩
    obtain ⟨hstart, hlt, hrest⟩ := Span.fills_cons.mp htop
    obtain ⟨hu, hchildren, hus⟩ := forall_occurs_cons.mp hinside
    refine ⟨hstart, hlt, or_iff_not_imp_left.mpr fun hne => ⟨hu hne, hchildren⟩, hrest, hus⟩
  · rintro ⟨hstart, hlt, hchildren, hrest, hus⟩
    refine ⟨Span.fills_cons.mpr ⟨hstart, hlt, hrest⟩, forall_occurs_cons.mpr ⟨?_, ?_, hus⟩⟩
    · intro hne
      exact (hchildren.resolve_left hne).top
    · rcases hchildren with hnil | ⟨-, hinside⟩
      · rw [hnil]
        exact fun v hv => absurd hv not_occurs_nil
      · exact hinside

/-- **The check accepts what partitions the rest of the range**, which is what is left of it when
the check has come to an offset. -/
theorem checkFrom_eq_ok_iff_partitions (hordered : Ordered us) :
    checkFrom expected stop us = .ok () ↔ Partitions ⟨expected, stop⟩ us := by
  induction us using forest_induction generalizing expected stop with
  | nil =>
    rw [partitions_nil, checkFrom]
    split
    next h => exact iff_of_true rfl h
    next h => exact iff_of_false nofun h
  | cons u us inside behind =>
    obtain ⟨hu, hchildren, hus⟩ := forall_occurs_cons.mp hordered
    rw [checkFrom_cons_eq_ok_iff hu, partitions_cons, checkChildren_eq_ok_iff, inside hchildren,
      behind hus]

/-! ### Leaves -/

/-- **The leaves of a forest that partitions a range fill it as well**, of whatever levels they
are. -/
theorem Partitions.fills_leavesForest (h : Partitions ⟨expected, stop⟩ us) :
    Span.Fills ⟨expected, stop⟩ ((leavesForest us).map Token.span) := by
  induction us using forest_induction generalizing expected stop with
  | nil => exact h.top
  | cons u us inside behind =>
    obtain ⟨rfl, hlt, hchildren, hrest⟩ := partitions_cons.mp h
    have hu : u.span.Fills ((leaves u).map Token.span) := by
      by_cases hleaf : u.isLeaf = true
      · rw [leaves_of_isLeaf hleaf]
        exact Span.fills_cons.mpr ⟨rfl, hlt, Span.fills_nil.mpr rfl⟩
      · rw [leaves_of_not_isLeaf hleaf]
        exact inside (hchildren.resolve_left (mt List.isEmpty_iff.mpr hleaf))
    rw [leavesForest, List.map_append]
    exact hu.append (behind hrest)

/-- **What the coverage check accepts, and what the leaves inherit.** A forest in which no span ends
in front of its start is accepted for a range exactly if it partitions the range. Then the leaves
fill the range, so every offset of the range lies in one leaf only and no other offset in any; and
in a text in which the leaves start and end at boundaries their pieces spell out the range. -/
theorem checkCoverage_partitions (s : TokenStream) (span : Span) (hordered : Ordered s.tokens) :
    (checkCoverage s.tokens span = .ok () ↔ Partitions span s.tokens) ∧
    (checkCoverage s.tokens span = .ok () →
      span.Fills (s.leaves.map Token.span) ∧
      (∀ offset, s.leaves.countP (·.span.has offset) = if span.has offset then 1 else 0) ∧
      ∀ t : Text, (∀ u ∈ s.leaves, t.IsBoundary u.span.start ∧ t.IsBoundary u.span.stop) →
        s.leaves.flatMap (t.slice ·.span) = t.slice span) := by
  have haccepts : checkCoverage s.tokens span = .ok () ↔ Partitions span s.tokens :=
    checkFrom_eq_ok_iff_partitions hordered
  have hleaves : s.leaves = leavesForest s.tokens := by
    rw [TokenStream.leaves, walk_leaves_eq, List.flatMap_singleton]
  refine ⟨haccepts, fun h => ?_⟩
  have hfills : span.Fills (s.leaves.map Token.span) := by
    rw [hleaves]
    exact (haccepts.mp h).fills_leavesForest
  refine ⟨hfills, fun offset => ?_, fun t hbounds => ?_⟩
  · rw [← hfills.countP_has offset, List.countP_map]
    rfl
  · rw [← hfills.flatMap_slice (List.forall_mem_map.mpr hbounds), List.flatMap_map]

/-- The case of a name in brackets behind a character, where one character of the name takes two
bytes. -/
theorem checkCoverage_partitions_brackets :
    let forest := [leaf .text ⟨0, 1⟩, node .tag ⟨1, 6⟩ [leaf .punctuation ⟨1, 2⟩,
      node .identifier ⟨2, 5⟩ [leaf .text ⟨2, 3⟩, leaf .text ⟨3, 5⟩], leaf .punctuation ⟨5, 6⟩]]
    let text : Text := ['x', '<', 'n', 'é', '>']
    let s : TokenStream := ⟨forest, 6⟩
    Ordered forest ∧ checkCoverage forest ⟨0, 6⟩ = .ok () ∧ Partitions ⟨0, 6⟩ forest ∧
      (∀ u ∈ s.leaves, text.IsBoundary u.span.start ∧ text.IsBoundary u.span.stop) ∧
      s.leaves.flatMap (text.slice ·.span) = text := by
  intro forest text s
  have hordered : Ordered forest := by
    simp [Ordered, forest, forall_occurs_cons, not_occurs_nil, leaf]
  have hbounds : ∀ u ∈ s.leaves, text.IsBoundary u.span.start ∧ text.IsBoundary u.span.stop := by
    rw [TokenStream.leaves, walk_leaves_eq, List.flatMap_singleton]
    have h0 : text.IsBoundary 0 := ⟨[], _, rfl, rfl⟩
    have h1 : text.IsBoundary 1 := ⟨['x'], _, rfl, rfl⟩
    have h2 : text.IsBoundary 2 := ⟨['x', '<'], _, rfl, rfl⟩
    have h3 : text.IsBoundary 3 := ⟨['x', '<', 'n'], _, rfl, rfl⟩
    have h5 : text.IsBoundary 5 := ⟨['x', '<', 'n', 'é'], _, rfl, rfl⟩
    have h6 : text.IsBoundary 6 := ⟨['x', '<', 'n', 'é', '>'], _, rfl, rfl⟩
    simp [s, forest, leavesForest, leaves, leaf, h0, h1, h2, h3, h5, h6]
  obtain ⟨haccepts, hleaves⟩ := checkCoverage_partitions s ⟨0, 6⟩ hordered
  have hok : checkCoverage forest ⟨0, 6⟩ = .ok () := rfl
  exact ⟨hordered, hok, haccepts.mp hok, hbounds,
    ((hleaves hok).2.2 text hbounds).trans (Text.slice_all text)⟩

end Token

end Polylex
