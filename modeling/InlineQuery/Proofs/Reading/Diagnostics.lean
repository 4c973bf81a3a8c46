/-
Diagnostics are only ever added.

A reader that has reported something never takes it back: the diagnostics of
a state are the beginning of those of every later one (`Precedes`), so their
number only grows (`Precedes.length_le`). A reading that ends with as many
diagnostics as it began with was therefore quiet all the way.

How often a problem was reported (`State.times`) tells which way an atom was
read: each operation at the end of an atom reports problems of its own, and
leaves the count of all others as it was.
-/
import InlineQuery.Proofs.Reading.Combination
import InlineQuery.Proofs.Reading.Steps

namespace InlineQuery

namespace State

@[simp] theorem length_report (problem : Diagnostic) (s : State) :
    (s.report problem).diagnostics.length = s.diagnostics.length + 1 := by
  simp [report]

/-- The diagnostics of the first state are the beginning of those of the
second. -/
def Precedes (s t : State) : Prop := s.diagnostics <+: t.diagnostics

namespace Precedes

variable {s t u : State}

theorem refl (s : State) : s.Precedes s := List.prefix_rfl

theorem trans (h : s.Precedes t) (h' : t.Precedes u) : s.Precedes u := List.IsPrefix.trans h h'

theorem of_eq (h : t.diagnostics = s.diagnostics) : s.Precedes t :=
  ⟨[], by rw [List.append_nil, h]⟩

theorem report (problem : Diagnostic) (h : s.Precedes t) : s.Precedes (t.report problem) :=
  List.IsPrefix.trans h (List.prefix_append _ _)

theorem length_le (h : s.Precedes t) : s.diagnostics.length ≤ t.diagnostics.length :=
  List.IsPrefix.length_le h

end Precedes

variable {problem other : Diagnostic} {s t : State}

/-- How often the problem was reported. -/
def times (problem : Diagnostic) (s : State) : Nat := s.diagnostics.count problem

theorem times_report (problem : Diagnostic) (s : State) :
    (s.report problem).times problem = s.times problem + 1 := by
  simp [times, report, List.count_append]

theorem times_report_of_ne (h : other ≠ problem) (s : State) :
    (s.report other).times problem = s.times problem := by
  simp [times, report, List.count_append, h]

/-- What was added between two states has a problem in it as often as it was
reported since. -/
theorem Precedes.exists_count {n : Nat} (h : s.Precedes t)
    (htimes : t.times problem = s.times problem + n) :
    ∃ reported, t.diagnostics = s.diagnostics ++ reported ∧ reported.count problem = n := by
  obtain ⟨reported, hreported⟩ := h
  refine ⟨reported, hreported.symm, ?_⟩
  rw [times, times, ← hreported, List.count_append] at htimes
  exact Nat.add_left_cancel htimes

end State

namespace Reader

open State

variable {r : Reader}

-- ============================================================= single steps

@[simp] theorem diagnostics_next (r : Reader) (s : State) :
    (r.next s).state.diagnostics = s.diagnostics := rfl

@[simp] theorem diagnostics_enter (block : Block) (s : State) :
    (s.enter block).diagnostics = s.diagnostics := rfl

theorem precedes_combine (r : Reader) (mode : Mode) (current incoming : Option Description)
    (s : State) : s.Precedes (r.combine mode current incoming s).state := by
  unfold combine
  dsimp only
  split
  · exact (Precedes.refl s).report _
  · exact .refl s

theorem times_combine {problem : Diagnostic}
    (h : ∀ feature fragment, .featureNotPermitted feature fragment ≠ problem) (r : Reader)
    (mode : Mode) (current incoming : Option Description) (s : State) :
    (r.combine mode current incoming s).state.times problem = s.times problem := by
  have hcombination := combine_combination r.config.features mode current incoming
  rw [state_combine]
  generalize InlineQuery.combine r.config.features mode current incoming = combined
    at hcombination
  cases hcombination with
  | refused | separate => exact times_report_of_ne (h _ _) s
  | _ => rfl

theorem precedes_reportAny (problem : Option Diagnostic) (s : State) :
    s.Precedes (reportAny problem s) := by
  cases problem with
  | none => exact .refl s
  | some problem => exact (Precedes.refl s).report problem

-- ========================================================== closing an atom

@[simp] theorem diagnostics_skipToClosing (r : Reader) (s : State) :
    (r.skipToClosing s).2.state.diagnostics = s.diagnostics := by
  unfold skipToClosing
  dsimp only
  split <;> rfl

theorem times_skipToClosing (problem : Diagnostic) (r : Reader) (s : State) :
    (r.skipToClosing s).2.state.times problem = s.times problem :=
  congrArg (List.count _) (diagnostics_skipToClosing r s)

theorem precedes_restrictAtom (r : Reader) (restrict restricted : Bool)
    (result : Option Description) (s : State) :
    s.Precedes (r.restrictAtom restrict restricted result s).state := by
  unfold restrictAtom
  split
  · split
    · exact precedes_combine r _ _ _ s
    · exact .refl s
  · exact .refl s

theorem times_restrictAtom {problem : Diagnostic}
    (h : ∀ feature fragment, .featureNotPermitted feature fragment ≠ problem) (r : Reader)
    (restrict restricted : Bool) (result : Option Description) (s : State) :
    (r.restrictAtom restrict restricted result s).state.times problem = s.times problem := by
  unfold restrictAtom
  split
  · split
    · exact times_combine h r .conjunctive _ _ s
    · rfl
  · rfl

theorem precedes_skipLabel (r : Reader) (c : Chunk) :
    c.state.Precedes (r.skipLabel c).state := by
  unfold skipLabel
  split
  · exact (Precedes.of_eq (diagnostics_skipToClosing r c.state)).report _
  · exact .refl c.state

theorem times_skipLabel {problem : Diagnostic} (h : ∀ content, .trailingContent content ≠ problem)
    (r : Reader) (c : Chunk) : (r.skipLabel c).state.times problem = c.state.times problem := by
  unfold skipLabel
  split
  · exact (times_report_of_ne (h _) _).trans (times_skipToClosing problem r c.state)
  · rfl

theorem precedes_expectClosing (r : Reader) (c : Chunk) :
    c.state.Precedes (r.expectClosing c) := by
  unfold expectClosing
  split
  · exact .refl c.state
  · split
    · exact (Precedes.refl c.state).report _
    · have hskip : c.state.Precedes
          (r.skipToClosing (c.state.report (.misplacedSymbol c.text))).2.state :=
        ((Precedes.refl c.state).report _).trans (.of_eq (diagnostics_skipToClosing r _))
      dsimp only
      split
      · exact hskip.report _
      · exact hskip

theorem precedes_leaveAtom (s : State) : s.Precedes (leaveAtom s) := by
  unfold leaveAtom
  split
  · exact .refl s
  · exact Precedes.report _ (t := s.leave) (.refl s)

theorem times_leaveAtom {problem : Diagnostic}
    (h : ∀ expected found, .mismatchedDelimiter expected found ≠ problem) (s : State) :
    (leaveAtom s).times problem = s.times problem := by
  unfold leaveAtom
  split
  · rfl
  · exact times_report_of_ne (h _ _) s.leave

theorem precedes_closing (r : Reader) (text : Text) (s : State) :
    s.Precedes (leaveAtom (r.expectClosing (r.skipLabel ⟨text, s⟩))) :=
  (precedes_skipLabel r ⟨text, s⟩).trans
    ((precedes_expectClosing r _).trans (precedes_leaveAtom _))

/-- The state in which the end of an atom closes its block. -/
def beforeLeaving (r : Reader) (mark : Nat) (restrict restricted : Bool)
    (result : Option Description) (c : Chunk) : State :=
  let s :=
    if result.isNone && c.state.diagnostics.length == mark then c.state.report .badAtom
    else c.state
  r.expectClosing (r.skipLabel ⟨c.text, (r.restrictAtom restrict restricted result s).state⟩)

theorem state_finishAtom (mark : Nat) (restrict restricted : Bool)
    (result : Option Description) (c : Chunk) :
    (r.finishAtom mark restrict restricted result c).state =
      leaveAtom (r.beforeLeaving mark restrict restricted result c) := rfl

theorem precedes_beforeLeaving (r : Reader) (mark : Nat) (restrict restricted : Bool)
    (result : Option Description) (c : Chunk) :
    c.state.Precedes (r.beforeLeaving mark restrict restricted result c) := by
  have hbad : c.state.Precedes
      (if result.isNone && c.state.diagnostics.length == mark then c.state.report .badAtom
        else c.state) := by
    split
    · exact (Precedes.refl c.state).report _
    · exact .refl c.state
  unfold beforeLeaving
  dsimp only
  exact (hbad.trans (precedes_restrictAtom r restrict restricted result _)).trans
    ((precedes_skipLabel r ⟨c.text, _⟩).trans (precedes_expectClosing r _))

theorem precedes_finishAtom (r : Reader) (mark : Nat) (restrict restricted : Bool)
    (result : Option Description) (c : Chunk) :
    c.state.Precedes (r.finishAtom mark restrict restricted result c).state :=
  (precedes_beforeLeaving r mark restrict restricted result c).trans (precedes_leaveAtom _)

/-- An atom without any condition never ends as quietly as it began. -/
theorem length_lt_finishAtom_none (r : Reader) {mark : Nat} (restrict restricted : Bool)
    {c : Chunk} (hmark : mark ≤ c.state.diagnostics.length) :
    mark < (r.finishAtom mark restrict restricted none c).state.diagnostics.length := by
  by_cases hquiet : c.state.diagnostics.length = mark
  · -- nothing else explains the empty atom, so it is reported itself
    have hafter := (precedes_closing r c.text (c.state.report .badAtom)).length_le
    rw [length_report, hquiet] at hafter
    have heq : (r.finishAtom mark restrict restricted none c).state =
        leaveAtom (r.expectClosing (r.skipLabel ⟨c.text, c.state.report .badAtom⟩)) := by
      simp [finishAtom, restrictAtom, hquiet]
    rw [heq]
    omega
  · have := (precedes_finishAtom r mark restrict restricted none c).length_le
    omega

theorem precedes_abandonAtom (r : Reader) (mark : Nat) (restrict : Bool) (s : State) :
    s.Precedes (r.abandonAtom mark restrict s).state :=
  (Precedes.of_eq (diagnostics_skipToClosing r s)).trans (precedes_finishAtom r mark restrict _ _ _)

-- ======================================================= atoms by their kind

theorem precedes_readClass (r : Reader) (kind : ClassKind) (result : Option Description)
    (s : State) : s.Precedes (r.readClass kind result s).terminator.state := by
  have hmember (result : Option Description) (s : State) (t : Text) :
      s.Precedes (r.combine .disjunctive result (classMember r.config kind t).1
        (reportAny (classMember r.config kind t).2 s)).state :=
    (precedes_reportAny _ s).trans (precedes_combine r _ _ _ _)
  fun_induction readClass r kind result s with
  | case1 result s name token h => exact .refl s
  | case2 result s name token h combined following hmore ih =>
    refine Precedes.trans ?_ ih
    simp only [following, combined]
    split
    · exact .refl s
    · exact hmember result name.state name.text
  | case3 result s name token h combined following hmore =>
    simp only [following, combined]
    split
    · exact .refl s
    · exact hmember result name.state name.text

theorem precedes_articleAtom (r : Reader) (mark : Nat) (restrict : Bool)
    (result : Option Description) (c : Chunk) :
    c.state.Precedes (r.articleAtom mark restrict result c).state := by
  fun_induction articleAtom r mark restrict result c with
  | case1 result c h =>
    exact ((Precedes.refl c.state).report _).trans (precedes_abandonAtom r mark restrict _)
  | case2 result c h condition problem hc combined following hmore ih =>
    exact ((precedes_reportAny problem c.state).trans (precedes_combine r _ _ _ _)).trans ih
  | case3 result c h condition problem hc combined following hmore =>
    exact ((precedes_reportAny problem c.state).trans (precedes_combine r _ _ _ _)).trans
      (precedes_finishAtom r mark restrict _ _ following)

-- ============================================================== subqueries

theorem precedes_restrictAll (r : Reader) (defaults : Description)
    (ds : List (Option Description)) (s : State) :
    s.Precedes (r.restrictAll defaults ds s).2 := by
  induction ds generalizing s with
  | nil => exact .refl s
  | cons d ds ih => exact (precedes_combine r _ _ _ s).trans (ih _)

theorem precedes_finishAlternative (r : Reader) (p : Progress) (s : State) :
    s.Precedes (r.finishAlternative p s).2 := by
  unfold finishAlternative
  split
  · exact .refl s
  · split
    · exact precedes_restrictAll r _ _ s
    · split
      · exact precedes_combine r _ _ _ s
      · exact .refl s

theorem precedes_combineAll (r : Reader) (result : Option Description)
    (ds : List (Option Description)) (s : State) :
    s.Precedes (r.combineAll result ds s).state := by
  induction ds generalizing result s with
  | nil => exact .refl s
  | cons d ds ih => exact (precedes_combine r _ _ _ s).trans (ih _ _)

theorem precedes_conclude (r : Reader) (mark : Nat) (p : Progress) (s : State) :
    s.Precedes (r.conclude mark p s).state := by
  unfold conclude
  dsimp only
  split
  · split
    · exact (Precedes.refl s).report _
    · exact .refl s
  · exact precedes_combineAll r none _ s

/-- A subquery that loses conditions never ends as quietly as it began. -/
theorem length_lt_conclude_lost (r : Reader) {mark : Nat} {p : Progress} {s : State}
    (hmark : mark ≤ s.diagnostics.length)
    (hlost : (p.finished.isEmpty || p.finished.any Option.isNone) = true) :
    mark < (r.conclude mark p s).state.diagnostics.length := by
  unfold conclude
  rw [if_pos hlost]
  dsimp only
  split
  · rw [length_report]
    omega
  · next hnot =>
    simp only [Bool.or_eq_true, beq_iff_eq, not_or] at hnot
    omega

theorem precedes_leaveAtEnd (s : State) : s.Precedes (leaveAtEnd s) := by
  unfold leaveAtEnd
  split
  · exact Precedes.report _ (t := s.leave) (.refl s)
  · exact .refl s

theorem precedes_leaveSubquery (r : Reader) (mark : Nat) (restrict : Bool) (chunk : Text)
    (p : Progress) (s : State) :
    s.Precedes (r.leaveSubquery mark restrict chunk p s).state := by
  unfold leaveSubquery
  split
  · exact precedes_conclude r mark p s.leave
  · exact Precedes.report _ (t := s.leave) (.refl s)

theorem precedes_addCondition (r : Reader) (p : Progress) (o : Outcome) :
    o.state.Precedes (r.addCondition p o).2 :=
  precedes_combine r _ _ _ o.state

theorem precedes_closeProperty (r : Reader) (mark : Nat) (restrict : Bool) (c : Chain)
    (values : Members) :
    values.terminator.state.Precedes (r.closeProperty mark restrict c values).state := by
  unfold closeProperty
  split
  · exact precedes_finishAtom r mark restrict _ _ _
  · exact ((Precedes.refl values.terminator.state).report _).trans
      (precedes_finishAtom r mark restrict _ _ ⟨values.terminator.text, _⟩)

theorem precedes_addSubquery (r : Reader) (c : Chain) (result : Option Description)
    (o : Outcome) : o.state.Precedes (r.addSubquery c result o).state := by
  unfold addSubquery
  split
  · exact precedes_combine r _ _ _ o.state
  · exact ((Precedes.refl _).report _).trans (precedes_combine r _ _ _ _)

theorem precedes_addLiteral (r : Reader) (c : Chain) (result : Option Description)
    (text : ValueText) (s : State) :
    s.Precedes (r.addLiteral c result text s).terminator.state :=
  Precedes.trans (precedes_reportAny _ { s with rest := text.rest })
    (precedes_combine r _ _ _ _)

-- ============================================================= all readings

/-- Readers only add diagnostics to those they were given. -/
def addingInvariant : Invariant where
  subquery _ s o := s.Precedes o.state
  alternatives _ _ _ s o := s.Precedes o.state
  atom _ s o := s.Precedes o.state
  property _ _ _ s o := s.Precedes o.state
  values _ _ s m := s.Precedes m.terminator.state
  oneValue _ _ s m := s.Precedes m.terminator.state

theorem addingInvariant_preserved (r : Reader) : addingInvariant.Preserved r where
  subquery_nil restrict s _ :=
    (precedes_leaveAtEnd (r.next s).state).trans (precedes_conclude r _ _ _)
  subquery_alternatives restrict s _ h := h
  finish mark restrict p s _ :=
    ((precedes_finishAlternative r p (r.next s).state).trans (precedes_leaveAtEnd _)).trans
      (precedes_conclude r _ _ _)
  openAtom mark restrict p s p' s' _ heq hatom ho := by
    have hadd := precedes_addCondition r p (r.readAtom false (r.next s).state).val
    rw [heq] at hadd
    exact (hatom.trans hadd).trans ho
  openQuery mark restrict p s p' s' _ heq hsub ho := by
    have hadd := precedes_addCondition r p
      (r.readSubquery false ((r.next s).state.enter .subquery)).val
    rw [heq] at hadd
    exact (hsub.trans hadd).trans ho
  or mark restrict p s p' s' _ heq ho := by
    have hfinish := precedes_finishAlternative r p (r.next s).state
    rw [heq] at hfinish
    exact hfinish.trans ho
  closeQuery mark restrict p s _ :=
    (precedes_finishAlternative r p (r.next s).state).trans (precedes_leaveSubquery r _ _ _ _ _)
  wildcard mark restrict p s _ ho := ho
  unexpected mark restrict p s s' _ heq ho := by
    subst heq
    exact ((Precedes.refl (r.next s).state).report _).trans ho
  classAtom kind restrict s _ :=
    (precedes_readClass r kind none (r.opened s)).trans (precedes_finishAtom r _ _ _ _ _)
  emptyAtom restrict s _ _ := precedes_finishAtom r _ _ _ _ ⟨_, r.opened s⟩
  escapedAtom restrict s _ _ :=
    precedes_articleAtom r _ _ _ ⟨_, (r.nextAt .atomContent (r.opened s)).state⟩
  articleAtom restrict s _ _ _ := precedes_articleAtom r _ _ _ ⟨_, r.opened s⟩
  propertyAtom restrict s _ _ ho := ho
  property_error mark restrict name s problem _ :=
    ((Precedes.refl s).report problem).trans (precedes_abandonAtom r _ _ _)
  property_ok mark restrict name s c _ hvalues :=
    hvalues.trans (precedes_closeProperty r mark restrict c _)
  values_more c result s result' s' _ _ hstate hfirst hothers := by
    subst hstate
    exact Precedes.trans hfirst hothers
  values_last c result s _ hlast := hlast
  value_wildcard c result s _ := precedes_combine r _ _ _ (r.next s).state
  value_openQuery c result s combined _ heq hsub := by
    subst heq
    exact Precedes.trans hsub (precedes_addSubquery r c result _)
  value_delimiter c result s _ _ := .refl s
  value_literal c result s _ := precedes_addLiteral r c result _ (r.next s).state

theorem precedes_readSubquery (r : Reader) (restrict : Bool) (s : State) :
    s.Precedes (r.readSubquery restrict s).val.state :=
  (addingInvariant_preserved r).subquery restrict s

theorem precedes_readAlternatives (r : Reader) (mark : Nat) (restrict : Bool) (p : Progress)
    (s : State) : s.Precedes (r.readAlternatives mark restrict p s).val.state :=
  (addingInvariant_preserved r).alternatives mark restrict p s

theorem precedes_readAtom (r : Reader) (restrict : Bool) (s : State) :
    s.Precedes (r.readAtom restrict s).val.state :=
  (addingInvariant_preserved r).atom restrict s

end Reader

end InlineQuery
