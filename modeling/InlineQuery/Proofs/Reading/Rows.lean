/-
Rows of alternatives, whatever is read as one of their conditions.

Some statements about a row depend on what its conditions are, and not on how
they are read. Such a statement is proved of one more chunk at a time, and the
atoms and subqueries come in as they are (`RowPreserved`).

# One condition and no other

If a row means a condition on a property, then that is a condition it has been
given as a whole: whatever is added to a condition makes something other than a
condition on a property (`Mode.merge_ne_someProperty`), and so do several
alternatives (`finished_of_isSingle`). So any other condition in its place would
be what the row means (`replaceable_preserved`).

# Restricting itself

A subquery that is a value is asked to restrict itself, and a whole query is
not. Where nothing restricts, this makes no difference
(`readSubquery_restrict`).

A query that is one atom is a row of one condition, and means what the atom
means (`read_atom`).
-/
import InlineQuery.Proofs.Reading.Composition
import InlineQuery.Proofs.Reading.Reports

namespace InlineQuery

open Description

/-- Two conditions together are no condition on a property. -/
theorem Mode.merge_ne_someProperty (mode : Mode) (a b : Description) {property : Property}
    {inner : Description} {ps : List PrintRequest} :
    mode.merge a b ≠ .someProperty property inner ps := by
  unfold merge
  cases hextend : mode.extend? a b with
  | some extended =>
    obtain ⟨-, _, _, -, rfl⟩ | ⟨-, _, _, _, _, -, rfl⟩ := extend?_cases hextend
    · exact nofun
    · exact nofun
  | none =>
    obtain ⟨-, h⟩ | ⟨-, _, _, _, _, _, _, -, -, h⟩ | ⟨-, -, h⟩ := join_cases mode a b
    all_goals
      rw [Option.getD_none, h]
      exact nofun

namespace Reader

open State

variable {r : Reader} {s : State}

-- ====================================================== rows of alternatives

/-- The next chunk begins an atom or a subquery, of which this came. -/
inductive Offers (r : Reader) (s : State) : Outcome → Prop
  | atom (h : Token.ofChunk (r.next s).text = .openAtom) : Offers r s (r.atomAt s)
  | subquery (h : Token.ofChunk (r.next s).text = .openQuery) : Offers r s (r.subqueryAt false s)

namespace Offers

variable {o : Outcome}

theorem reads (h : r.Offers s o) (mark : Nat) (restrict : Bool) (p : Progress) :
    (r.readAlternatives mark restrict p s).val =
      (r.readAlternatives mark restrict (r.addCondition p o).1 (r.addCondition p o).2).val := by
  cases h with
  | atom h => exact readAlternatives_openAtom h
  | subquery h => exact readAlternatives_openQuery h

theorem precedes (h : r.Offers s o) : s.Precedes o.state := by
  cases h with
  | atom => exact precedes_atomAt r s
  | subquery => exact precedes_subqueryAt r false s

/-- What is read without a report is a condition. -/
theorem result_ne_none (h : r.Offers s o) (hquiet : o.state.diagnostics = s.diagnostics) :
    o.result ≠ none := by
  intro hnone
  have hlt : s.diagnostics.length < o.state.diagnostics.length := by
    cases h with
    | atom => exact length_lt_readAtom false _ hnone
    | subquery => exact length_lt_readSubquery false _ hnone
  rw [hquiet] at hlt
  exact Nat.lt_irrefl _ hlt

end Offers

/-- A statement about rows of alternatives passes from what is left behind a
chunk to what there was. Atoms and subqueries are taken as they come. -/
structure RowPreserved (P : Nat → Bool → Progress → State → Outcome → Prop) (r : Reader) :
    Prop where
  finish : ∀ mark restrict p s, (r.next s).text = [] →
    P mark restrict p s
      (r.conclude mark (r.finishAlternative p (r.next s).state).1
        (leaveAtEnd (r.finishAlternative p (r.next s).state).2))
  condition : ∀ mark restrict p s o, r.Offers s o →
    P mark restrict (r.addCondition p o).1 (r.addCondition p o).2
      (r.readAlternatives mark restrict (r.addCondition p o).1 (r.addCondition p o).2).val →
    P mark restrict p s
      (r.readAlternatives mark restrict (r.addCondition p o).1 (r.addCondition p o).2).val
  or : ∀ mark restrict p s,
    Token.ofChunk (r.next s).text = .bars ∨ Token.ofChunk (r.next s).text = .orWord →
    P mark restrict (r.finishedAt p s).1 (r.finishedAt p s).2
      (r.readAlternatives mark restrict (r.finishedAt p s).1 (r.finishedAt p s).2).val →
    P mark restrict p s
      (r.readAlternatives mark restrict (r.finishedAt p s).1 (r.finishedAt p s).2).val
  closeQuery : ∀ mark restrict p s, Token.ofChunk (r.next s).text = .closeQuery →
    P mark restrict p s
      (r.leaveSubquery mark restrict (r.next s).text (r.finishAlternative p (r.next s).state).1
        (r.finishAlternative p (r.next s).state).2)
  wildcard : ∀ mark restrict p s, Token.ofChunk (r.next s).text = .wildcard →
    P mark restrict p (r.next s).state
      (r.readAlternatives mark restrict p (r.next s).state).val →
    P mark restrict p s (r.readAlternatives mark restrict p (r.next s).state).val
  unexpected : ∀ mark restrict p s s', Unexpected (r.next s).text →
    (r.next s).state.report (.unexpectedPart (r.next s).text) = s' →
    P mark restrict p s' (r.readAlternatives mark restrict p s').val →
    P mark restrict p s (r.readAlternatives mark restrict p s').val

theorem RowPreserved.alternatives {P : Nat → Bool → Progress → State → Outcome → Prop}
    (h : RowPreserved P r) (mark : Nat) (restrict : Bool) (p : Progress) (s : State) :
    P mark restrict p s (r.readAlternatives mark restrict p s).val := by
  let rows : Invariant :=
    ⟨fun _ _ _ => True, P, fun _ _ _ => True, fun _ _ _ _ _ => True, fun _ _ _ _ => True,
      fun _ _ _ _ => True⟩
  have hpreserved : rows.Preserved r := {
    subquery_nil := fun _ _ _ => trivial
    subquery_alternatives := fun _ _ _ _ => trivial
    finish := h.finish
    openAtom := fun mark restrict p s p' s' htoken heq _ hothers => by
      have hcondition := h.condition mark restrict p s (r.atomAt s) (.atom htoken)
      rw [show r.addCondition p (r.atomAt s) = (p', s') from heq] at hcondition
      exact hcondition hothers
    openQuery := fun mark restrict p s p' s' htoken heq _ hothers => by
      have hcondition := h.condition mark restrict p s (r.subqueryAt false s) (.subquery htoken)
      rw [show r.addCondition p (r.subqueryAt false s) = (p', s') from heq] at hcondition
      exact hcondition hothers
    or := fun mark restrict p s p' s' htoken heq hothers => by
      have hor := h.or mark restrict p s htoken
      rw [show r.finishedAt p s = (p', s') from heq] at hor
      exact hor hothers
    closeQuery := h.closeQuery
    wildcard := h.wildcard
    unexpected := h.unexpected
    classAtom := fun _ _ _ _ => trivial
    emptyAtom := fun _ _ _ _ => trivial
    escapedAtom := fun _ _ _ _ => trivial
    articleAtom := fun _ _ _ _ _ => trivial
    propertyAtom := fun _ _ _ _ _ => trivial
    property_error := fun _ _ _ _ _ _ => trivial
    property_ok := fun _ _ _ _ _ _ _ => trivial
    values_more := fun _ _ _ _ _ _ _ _ _ _ => trivial
    values_last := fun _ _ _ _ _ => trivial
    value_wildcard := fun _ _ _ _ => trivial
    value_openQuery := fun _ _ _ _ _ _ _ => trivial
    value_delimiter := fun _ _ _ _ _ => trivial
    value_literal := fun _ _ _ _ => trivial }
  exact hpreserved.alternatives mark restrict p s

-- ================================================= queries of one condition

/-- The condition is one on a property. -/
def IsSingle (result : Option Description) : Prop :=
  ∃ property inner ps, result = some (.someProperty property inner ps)

theorem not_isSingle_merge (mode : Mode) (a b : Description) :
    ¬ IsSingle (some (mode.merge a b)) := by
  rintro ⟨property, inner, ps, h⟩
  exact mode.merge_ne_someProperty a b (Option.some.inj h)

/-- Several alternatives do not mean a condition on a property. -/
theorem finished_of_isSingle (hr : r.Permissive) {mark : Nat} {p : Progress}
    (h : IsSingle (r.conclude mark p.ended s).result) : p.finished = [] := by
  by_cases hfinished : p.finished = []
  · exact hfinished
  · exfalso
    by_cases hcomplete : p.ended.Complete
    · obtain ⟨-, hall⟩ := Bool.or_eq_false_iff.1 hcomplete
      have hall : (p.finished ++ [p.current]).any Option.isNone = false := hall
      rw [List.any_append, Bool.or_eq_false_iff] at hall
      have hfront : p.Complete := Bool.or_eq_false_iff.2 ⟨by simpa using hfinished, hall.1⟩
      obtain ⟨d, hd⟩ := Option.isSome_iff_exists.1 hfront.isSome
      obtain ⟨e, he⟩ := Option.isSome_iff_exists.1 (by simpa using hall.2)
      have hjoined : joined p.ended.finished = some (Mode.disjunctive.merge d e) := by
        show joined (p.finished ++ [p.current]) = _
        rw [joined, List.foldl_append, ← joined, hd, he]
        rfl
      rw [hr.conclude mark hcomplete, hjoined] at h
      exact not_isSingle_merge .disjunctive d e h
    · rw [conclude, if_pos ((Bool.not_eq_false _).mp hcomplete)] at h
      obtain ⟨_, _, _, h⟩ := h
      cases h

/-- One condition is concluded to itself. -/
theorem Permissive.conclude_single (hr : r.Permissive) (mark : Nat) {p : Progress}
    (hfinished : p.finished = []) (d : Description) (s : State) :
    r.conclude mark ({ p with current := some d } : Progress).ended s =
      ⟨some d, p.restrict, s⟩ := by
  obtain ⟨current, finished, restricted, restrict⟩ := p
  obtain rfl : finished = [] := hfinished
  exact hr.conclude mark (p := ⟨none, [some d], false, restrict⟩) rfl s

/-- At the end of the alternatives, one condition is as good as another. -/
theorem conclude_replace (hr : r.Permissive) {mark : Nat} {p : Progress}
    (hsingle : IsSingle (r.conclude mark p.ended s).result) :
    p.finished = [] ∧ ∀ d, p.current = some d →
      (r.conclude mark p.ended s).result = some d ∧ ∀ e,
        r.conclude mark ({ p with current := some e } : Progress).ended s =
          { r.conclude mark p.ended s with result := some e } := by
  have hfinished := finished_of_isSingle hr hsingle
  refine ⟨hfinished, fun d hd => ?_⟩
  have hself : ({ p with current := some d } : Progress) = p := by rw [← hd]
  have hp := hr.conclude_single mark hfinished d s
  rw [hself] at hp
  rw [hp]
  exact ⟨rfl, fun e => hr.conclude_single mark hfinished e s⟩

/-- No condition is added to one under way if the query means a condition on
a property. -/
theorem current_of_addCondition (hr : r.Permissive) {p : Progress} {o : Outcome}
    {result : Option Description} (hsome : o.result ≠ none) (hsingle : IsSingle result)
    (h : ∀ d, (r.addCondition p o).1.current = some d → result = some d) :
    p.current = none := by
  obtain ⟨x, hx⟩ := Option.ne_none_iff_exists'.1 hsome
  cases hcurrent : p.current with
  | none => rfl
  | some d =>
    have hmerged : (r.addCondition p o).1.current = some (Mode.conjunctive.merge d x) := by
      rw [hr.addCondition, hcurrent, hx]
      rfl
    rw [h _ hmerged] at hsingle
    exact absurd hsingle (not_isSingle_merge .conjunctive d x)

/-- A row of alternatives that means a condition on a property has only the one
that is under way, and would mean any other in its place. -/
def Replaceable (r : Reader) (mark : Nat) (restrict : Bool) (p : Progress) (s : State)
    (o : Outcome) : Prop :=
  o.state.diagnostics = s.diagnostics → IsSingle o.result →
    p.finished = [] ∧ ∀ d, p.current = some d → o.result = some d ∧ ∀ e,
      (r.readAlternatives mark restrict { p with current := some e } s).val =
        { o with result := some e }

theorem replaceable_preserved (hr : r.Permissive) : RowPreserved r.Replaceable r where
  finish mark restrict p s hnil _ hsingle := by
    rw [hr.finishAlternative] at hsingle ⊢
    obtain ⟨hfinished, hreplace⟩ := conclude_replace hr hsingle
    refine ⟨hfinished, fun d hd => ⟨(hreplace d hd).1, fun e => ?_⟩⟩
    rw [readAlternatives_finish (Token.ofChunk_eq_finish_iff.2 hnil), hr.finishAlternative]
    exact (hreplace d hd).2 e
  condition mark restrict p s o hoffers hothers hquiet hsingle := by
    have hadd : (r.addCondition p o).2 = o.state := by rw [hr.addCondition]
    have hbehind := precedes_readAlternatives r mark restrict (r.addCondition p o).1
      (r.addCondition p o).2
    rw [hadd] at hothers hbehind
    obtain ⟨hquietFirst, hquietOthers⟩ := hoffers.precedes.quiet hbehind (hadd ▸ hquiet)
    obtain ⟨hfinished, hreplace⟩ := hothers hquietOthers (hadd ▸ hsingle)
    have hcurrent := current_of_addCondition hr (hoffers.result_ne_none hquietFirst) hsingle
      fun d hd => hadd ▸ (hreplace d hd).1
    rw [hr.addCondition] at hfinished
    refine ⟨hfinished, fun d hd => ?_⟩
    rw [hcurrent] at hd
    cases hd
  or mark restrict p s h hothers hquiet hsingle := by
    have hfinish : r.finishedAt p s = (p.ended, (r.next s).state) := hr.finishAlternative p _
    rw [hfinish] at hothers hquiet hsingle
    exact absurd (hothers hquiet hsingle).1 (by simp [Progress.ended])
  closeQuery mark restrict p s hclose _ hsingle := by
    rw [hr.finishAlternative] at hsingle ⊢
    by_cases hopen : (r.next s).state.blocks.head? = some .subquery
    · have hleave (p : Progress) : r.leaveSubquery mark restrict (r.next s).text p.ended
          (r.next s).state = r.conclude mark p.ended (r.next s).state.leave := if_pos hopen
      rw [hleave] at hsingle ⊢
      obtain ⟨hfinished, hreplace⟩ := conclude_replace hr hsingle
      refine ⟨hfinished, fun d hd => ⟨(hreplace d hd).1, fun e => ?_⟩⟩
      rw [readAlternatives_closeQuery hclose, hr.finishAlternative, hleave]
      exact (hreplace d hd).2 e
    · rw [leaveSubquery, if_neg hopen] at hsingle
      obtain ⟨_, _, _, hsingle⟩ := hsingle
      cases hsingle
  wildcard mark restrict p s h hothers hquiet hsingle := by
    obtain ⟨hfinished, hreplace⟩ := hothers hquiet hsingle
    refine ⟨hfinished, fun d hd => ⟨(hreplace d hd).1, fun e => ?_⟩⟩
    rw [readAlternatives_wildcard h]
    exact (hreplace d hd).2 e
  unexpected mark restrict p s s' _ heq _ hquiet := by
    subst heq
    exact absurd hquiet (Precedes.not_quiet_of_report (s := (r.next s).state) _
      (precedes_readAlternatives r mark restrict p _))

-- ==================================================== subqueries as values

theorem conclude_asked (r : Reader) (mark : Nat) (p : Progress) (asked : Bool) (s : State) :
    (r.conclude mark { p with restrict := asked } s).result = (r.conclude mark p s).result ∧
      (r.conclude mark { p with restrict := asked } s).state = (r.conclude mark p s).state := by
  unfold conclude
  dsimp only
  split <;> exact ⟨rfl, rfl⟩

/-- What a row of alternatives is read to does not depend on whether they are to
restrict themselves. -/
def Unasked (r : Reader) (mark : Nat) (_restrict : Bool) (p : Progress) (s : State)
    (o : Outcome) : Prop :=
  ∀ restrict asked,
    (r.readAlternatives mark restrict { p with restrict := asked } s).val.result = o.result ∧
      (r.readAlternatives mark restrict { p with restrict := asked } s).val.state = o.state

theorem unasked_preserved (hr : r.Permissive) : RowPreserved r.Unasked r where
  finish mark restrict p s hnil restrict' asked := by
    rw [readAlternatives_finish (Token.ofChunk_eq_finish_iff.2 hnil), hr.finishAlternative,
      hr.finishAlternative]
    exact conclude_asked r mark p.ended asked _
  condition mark restrict p s o hoffers hothers restrict' asked := by
    rw [hoffers.reads, hr.addCondition]
    rw [hr.addCondition] at hothers ⊢
    exact hothers restrict' asked
  or mark restrict p s h hothers restrict' asked := by
    rw [readAlternatives_or h, hr.finishAlternative]
    rw [finishedAt, hr.finishAlternative] at hothers ⊢
    exact hothers restrict' asked
  closeQuery mark restrict p s hclose restrict' asked := by
    rw [readAlternatives_closeQuery hclose, hr.finishAlternative, hr.finishAlternative]
    unfold leaveSubquery
    split
    · exact conclude_asked r mark p.ended asked _
    · exact ⟨rfl, rfl⟩
  wildcard mark restrict p s h hothers restrict' asked := by
    rw [readAlternatives_wildcard h]
    exact hothers restrict' asked
  unexpected mark restrict p s s' h heq hothers restrict' asked := by
    subst heq
    rw [readAlternatives_unexpected h]
    exact hothers restrict' asked

theorem readSubquery_restrict (hr : r.Permissive) (restrict restrict' : Bool) (s : State) :
    (r.readSubquery restrict s).val.result = (r.readSubquery restrict' s).val.result ∧
      (r.readSubquery restrict s).val.state = (r.readSubquery restrict' s).val.state := by
  by_cases hnil : (r.next s).text = []
  · rw [readSubquery_nil hnil, readSubquery_nil hnil]
    exact conclude_asked r _ (.start restrict') restrict _
  · rw [readSubquery_ne_nil hnil, readSubquery_ne_nil hnil]
    exact (unasked_preserved hr).alternatives _ restrict' (.start restrict') s restrict restrict

-- ============================================== queries that begin with an atom

/-- A query that begins with an atom, from behind that atom on. -/
theorem readSubquery_atom (hr : r.Permissive) (t : Text) :
    (r.readSubquery false (.start (['[', '['] ++ t))).val =
      (r.readAlternatives 0 false
        { Progress.start false with
          current := (r.readAtom false ⟨t, [], []⟩).val.result
          restricted := (r.readAtom false ⟨t, [], []⟩).val.restricted }
        (r.readAtom false ⟨t, [], []⟩).val.state).val := by
  have hnext : r.next (.start (['[', '['] ++ t)) = ⟨['[', '['], ⟨t, [], []⟩⟩ :=
    next_mark (by decide) rfl
  rw [readSubquery_ne_nil (by rw [hnext]; exact List.cons_ne_nil _ _),
    readAlternatives_openAtom (by rw [hnext]; rfl), hnext, hr.addCondition]
  cases (r.readAtom false ⟨t, [], []⟩).val.result <;> rfl

/-- A query that is one atom means what the atom means. -/
theorem read_atom (hr : r.Permissive) {t : Text} {d : Description} {restricted : Bool}
    (hatom : (r.readAtom false ⟨t, [], []⟩).val = ⟨some d, restricted, ⟨[], [], []⟩⟩) :
    r.read (['[', '['] ++ t) = ⟨d, ⟨[], [], []⟩⟩ := by
  have hnil : (r.next ⟨[], [], []⟩).text = [] := by
    by_cases hnil : (r.next ⟨[], [], []⟩).text = []
    · exact hnil
    · exact absurd (next_length_lt hnil) (Nat.not_lt_zero _)
  have hwhole := readSubquery_atom hr t
  rw [hatom] at hwhole
  dsimp only at hwhole
  rw [hr.readAlternatives_finish 0 false _ hnil] at hwhole
  have hend := hr.conclude_single 0 (p := ⟨some d, [], restricted, false⟩) rfl d ⟨[], [], []⟩
  rw [hr.read, hwhole.trans hend]
  rfl

/-- Nothing is reported of the atom that a query begins with, unless something
is reported of the query. -/
theorem readAtom_quiet (hr : r.Permissive) {t : Text}
    (hquiet : (r.read (['[', '['] ++ t)).state.diagnostics = []) :
    (r.readAtom false ⟨t, [], []⟩).val.state.diagnostics = [] := by
  rw [hr.read, readSubquery_atom hr] at hquiet
  exact ((precedes_readAtom r false ⟨t, [], []⟩).quiet
    (precedes_readAlternatives r 0 false _ _) hquiet).1

end Reader

end InlineQuery
