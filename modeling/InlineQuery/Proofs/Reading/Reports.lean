/-
No failure is silent.

An atom that makes no condition is reported when it ends, unless something in
it was, and so is a subquery. Whether something was is told from the number of
diagnostics when the part began, so what has to be shown is that the number has
grown by the end (`reportingInvariant`).

There is one place where this is not read off at once: a subquery can lose its
condition when its alternatives are joined. Then the first of them was not
permitted, and that has been reported.

# Queries without a condition

`Thing` is not the condition of any atom or subquery (`narrowInvariant`); it can
only stand inside of property conditions. A query that comes to it had no
condition at all.
-/
import InlineQuery.Proofs.Reading.Conditions
import InlineQuery.Proofs.Reading.Nesting

namespace InlineQuery

namespace Reader

open State

variable {r : Reader}

-- ========================================================== lost conditions

/-- The first condition that comes in is lost only with a report. -/
theorem combine_first (r : Reader) (mode : Mode) (d : Description) (s : State) :
    (r.combine mode none (some d) s).result.isSome = true ∨
      s.diagnostics.length < (r.combine mode none (some d) s).state.diagnostics.length := by
  have h := combine_combination r.config.features mode none (some d)
  unfold combine
  generalize InlineQuery.combine r.config.features mode none (some d) = combined at h
  cases h with
  | refused => exact .inr (Nat.lt_of_lt_of_eq (Nat.lt_succ_self _) (length_report _ s).symm)
  | first => exact .inl rfl

/-- What has been made is not lost by combining it with something else. -/
theorem isSome_result_combine (r : Reader) (mode : Mode) {current : Option Description}
    (h : current.isSome = true) (incoming : Option Description) (s : State) :
    (r.combine mode current incoming s).result.isSome = true := by
  have hcases := combine_combination r.config.features mode current incoming
  unfold combine
  generalize InlineQuery.combine r.config.features mode current incoming = combined at hcases
  cases hcases with
  | nothing => exact h
  | refused => exact h
  | _ => rfl

theorem isSome_combineAll (r : Reader) {result : Option Description}
    (h : result.isSome = true) (ds : List (Option Description)) (s : State) :
    (r.combineAll result ds s).result.isSome = true := by
  induction ds generalizing result s with
  | nil => exact h
  | cons d ds ih => exact ih (isSome_result_combine r .disjunctive h d s) _

/-- Alternatives that all have a condition lose it only with a report. -/
theorem length_lt_combineAll {ds : List (Option Description)} (hne : ds ≠ [])
    (hall : ds.any Option.isNone = false) {s : State}
    (hnone : (r.combineAll none ds s).result = none) :
    s.diagnostics.length < (r.combineAll none ds s).state.diagnostics.length := by
  cases ds with
  | nil => exact absurd rfl hne
  | cons d ds =>
    cases d with
    | none => cases hall
    | some d =>
      rw [combineAll] at hnone ⊢
      rcases combine_first r .disjunctive d s with hsome | hlt
      · have hsome := isSome_combineAll r hsome ds (r.combine .disjunctive none (some d) s).state
        rw [hnone] at hsome
        cases hsome
      · exact Nat.lt_of_lt_of_le hlt (precedes_combineAll r _ ds _).length_le

theorem length_lt_conclude {mark : Nat} {p : Progress} {s : State}
    (hmark : mark ≤ s.diagnostics.length) (hnone : (r.conclude mark p s).result = none) :
    mark < (r.conclude mark p s).state.diagnostics.length := by
  by_cases hlost : (p.finished.isEmpty || p.finished.any Option.isNone) = true
  · rw [conclude, if_pos hlost]
    dsimp only
    split
    · rw [length_report]
      exact Nat.lt_succ_of_le hmark
    · next hquiet =>
      have hdiffer : s.diagnostics.length ≠ mark := by
        rintro rfl
        rw [beq_self_eq_true, Bool.or_true] at hquiet
        exact hquiet rfl
      omega
  · rw [conclude, if_neg hlost] at hnone ⊢
    rw [Bool.not_eq_true, Bool.or_eq_false_iff] at hlost
    have hne : p.finished ≠ [] := by
      intro hnil
      rw [hnil] at hlost
      cases hlost.1
    exact Nat.lt_of_le_of_lt hmark (length_lt_combineAll hne hlost.2 hnone)

theorem length_lt_leaveSubquery {mark : Nat} {restrict : Bool} {chunk : Text} {p : Progress}
    {s : State} (hmark : mark ≤ s.diagnostics.length)
    (hnone : (r.leaveSubquery mark restrict chunk p s).result = none) :
    mark < (r.leaveSubquery mark restrict chunk p s).state.diagnostics.length := by
  by_cases hopen : s.blocks.head? = some .subquery
  · rw [leaveSubquery, if_pos hopen] at hnone ⊢
    exact length_lt_conclude (s := s.leave) hmark hnone
  · rw [leaveSubquery, if_neg hopen]
    dsimp only
    rw [length_report]
    exact Nat.lt_succ_of_le hmark

-- ==================================================================== atoms

/-- Restricting an atom does not lose its condition. -/
theorem isSome_finishAtom (mark : Nat) (restrict restricted : Bool) (d : Description)
    (c : Chunk) : (r.finishAtom mark restrict restricted (some d) c).result.isSome = true := by
  unfold finishAtom restrictAtom
  dsimp only
  split
  · split
    · exact isSome_result_combine r .conjunctive (by rfl) _ c.state
    · rfl
  · rfl

theorem length_lt_finishAtom {mark : Nat} {restrict restricted : Bool}
    {result : Option Description} {c : Chunk} (hmark : mark ≤ c.state.diagnostics.length)
    (hnone : (r.finishAtom mark restrict restricted result c).result = none) :
    mark < (r.finishAtom mark restrict restricted result c).state.diagnostics.length := by
  cases result with
  | none => exact length_lt_finishAtom_none r restrict restricted hmark
  | some d =>
    have hsome := isSome_finishAtom (r := r) mark restrict restricted d c
    rw [hnone] at hsome
    cases hsome

theorem length_lt_abandonAtom {mark : Nat} (restrict : Bool) {s : State}
    (hmark : mark ≤ s.diagnostics.length) :
    mark < (r.abandonAtom mark restrict s).state.diagnostics.length := by
  apply length_lt_finishAtom_none
  rw [diagnostics_skipToClosing]
  exact hmark

theorem length_lt_articleAtom {mark : Nat} {restrict : Bool} {result : Option Description}
    {c : Chunk} (hmark : mark ≤ c.state.diagnostics.length)
    (hnone : (r.articleAtom mark restrict result c).result = none) :
    mark < (r.articleAtom mark restrict result c).state.diagnostics.length := by
  fun_induction articleAtom r mark restrict result c with
  | case1 result c hquery =>
    apply length_lt_abandonAtom
    rw [length_report]
    exact Nat.le_succ_of_le hmark
  | case2 result c hquery condition problem hc combined following hmore ih =>
    have hadd := ((precedes_reportAny problem c.state).trans
      (precedes_combine r .disjunctive result condition _)).length_le
    exact ih (Nat.le_trans hmark hadd) hnone
  | case3 result c hquery condition problem hc combined following hmore =>
    have hadd := ((precedes_reportAny problem c.state).trans
      (precedes_combine r .disjunctive result condition _)).length_le
    exact length_lt_finishAtom (Nat.le_trans hmark hadd) hnone

theorem length_lt_closeProperty {mark : Nat} {restrict : Bool} {c : Chain} {values : Members}
    (hnone : (r.closeProperty mark restrict c values).result = none) :
    mark < (r.closeProperty mark restrict c values).state.diagnostics.length := by
  unfold closeProperty at hnone
  split at hnone
  · next inner _ =>
    have hsome := isSome_finishAtom (r := r) mark restrict false (c.describe inner)
      values.terminator
    rw [hnone] at hsome
    cases hsome
  · have hsome := isSome_finishAtom (r := r) mark restrict false
      (c.describe (r.wildcard c.valueType))
      ⟨values.terminator.text, values.terminator.state.report (.missingValue c.last.write)⟩
    rw [hnone] at hsome
    cases hsome

-- ============================================================= all readings

/-- A part of a query that makes no condition has reported something. -/
def reportingInvariant : Invariant where
  subquery _ s o := o.result = none → s.diagnostics.length < o.state.diagnostics.length
  alternatives mark _ _ s o := mark ≤ s.diagnostics.length → o.result = none →
    mark < o.state.diagnostics.length
  atom _ s o := o.result = none → s.diagnostics.length < o.state.diagnostics.length
  property mark _ _ s o := mark ≤ s.diagnostics.length → o.result = none →
    mark < o.state.diagnostics.length
  values _ _ _ _ := True
  oneValue _ _ _ _ := True

theorem reportingInvariant_preserved (r : Reader) : reportingInvariant.Preserved r where
  subquery_nil restrict s _ hnone :=
    length_lt_conclude (precedes_leaveAtEnd (r.next s).state).length_le hnone
  subquery_alternatives restrict s _ ho hnone := ho (Nat.le_refl _) hnone
  finish mark restrict p s _ hmark hnone := by
    have hfinish := (precedes_finishAlternative r p (r.next s).state).trans (precedes_leaveAtEnd _)
    exact length_lt_conclude (Nat.le_trans hmark hfinish.length_le) hnone
  openAtom mark restrict p s p' s' _ heq _ ho hmark hnone := by
    have hadd := (precedes_atomAt r s).trans (precedes_addCondition r p (r.atomAt s))
    rw [atomAt, heq] at hadd
    exact ho (Nat.le_trans hmark hadd.length_le) hnone
  openQuery mark restrict p s p' s' _ heq _ ho hmark hnone := by
    have hadd := (precedes_subqueryAt r false s).trans
      (precedes_addCondition r p (r.subqueryAt false s))
    rw [subqueryAt, heq] at hadd
    exact ho (Nat.le_trans hmark hadd.length_le) hnone
  or mark restrict p s p' s' _ heq ho hmark hnone := by
    have hfinish := precedes_finishAlternative r p (r.next s).state
    rw [heq] at hfinish
    exact ho (Nat.le_trans hmark hfinish.length_le) hnone
  closeQuery mark restrict p s _ hmark hnone := by
    have hfinish := precedes_finishAlternative r p (r.next s).state
    exact length_lt_leaveSubquery (Nat.le_trans hmark hfinish.length_le) hnone
  wildcard mark restrict p s _ ho hmark hnone := ho hmark hnone
  unexpected mark restrict p s s' _ heq ho hmark hnone := by
    subst heq
    refine ho ?_ hnone
    rw [length_report]
    exact Nat.le_succ_of_le hmark
  classAtom kind restrict s _ hnone :=
    length_lt_finishAtom (precedes_readClass r kind none (r.opened s)).length_le hnone
  emptyAtom restrict s _ _ hnone :=
    length_lt_finishAtom (c := ⟨_, r.opened s⟩) (Nat.le_refl _) hnone
  escapedAtom restrict s _ _ hnone :=
    length_lt_articleAtom (c := ⟨_, (r.nextAt .atomContent (r.opened s)).state⟩)
      (Nat.le_refl _) hnone
  articleAtom restrict s _ _ _ hnone :=
    length_lt_articleAtom (c := ⟨_, r.opened s⟩) (Nat.le_refl _) hnone
  propertyAtom restrict s _ _ ho hnone := ho (Nat.le_refl _) hnone
  property_error mark restrict name s problem _ hmark _ := by
    apply length_lt_abandonAtom
    rw [length_report]
    exact Nat.le_succ_of_le hmark
  property_ok mark restrict name s c _ _ _ hnone := length_lt_closeProperty hnone
  values_more _ _ _ _ _ _ _ _ _ _ := trivial
  values_last _ _ _ _ _ := trivial
  value_wildcard _ _ _ _ := trivial
  value_openQuery _ _ _ _ _ _ _ := trivial
  value_delimiter _ _ _ _ _ := trivial
  value_literal _ _ _ _ := trivial

theorem length_lt_readAtom (restrict : Bool) (s : State)
    (hnone : (r.readAtom restrict s).val.result = none) :
    s.diagnostics.length < (r.readAtom restrict s).val.state.diagnostics.length :=
  (reportingInvariant_preserved r).atom restrict s hnone

theorem length_lt_readSubquery (restrict : Bool) (s : State)
    (hnone : (r.readSubquery restrict s).val.result = none) :
    s.diagnostics.length < (r.readSubquery restrict s).val.state.diagnostics.length :=
  (reportingInvariant_preserved r).subquery restrict s hnone

-- ================================================ conditions that say nothing

/-- The condition is not met by every page without being looked at. -/
def Narrow (d : Description) : Prop := ∀ ps, d ≠ .thing ps

theorem narrow_combine (permitted : FeatureSet) (mode : Mode)
    {current incoming : Option Description} (hcurrent : Every Narrow current)
    (hincoming : Every Narrow incoming) :
    Every Narrow (InlineQuery.combine permitted mode current incoming).result := by
  have h := combine_combination permitted mode current incoming
  generalize InlineQuery.combine permitted mode current incoming = combined at h
  cases h with
  | nothing => exact hcurrent
  | refused => exact hcurrent
  | first => exact hincoming
  | separate => exact hcurrent
  | extended existing d extended _ hextended =>
    show Every Narrow (some extended)
    rw [every_some]
    obtain ⟨-, children, ps, -, rfl⟩ | ⟨-, children, i, always, ps, -, rfl⟩ :=
      Mode.extend?_cases hextended
    · exact nofun
    · exact nofun
  | joined existing d =>
    show Every Narrow (some (mode.join existing d))
    rw [every_some]
    obtain ⟨-, hjoin⟩ | ⟨-, xs, i, ps, ys, k, qs, -, -, hjoin⟩ | ⟨-, -, hjoin⟩ :=
      mode.join_cases existing d
    all_goals
      rw [hjoin]
      exact nofun

theorem narrow_classMember (config : Config) (kind : ClassKind) (t : Text) :
    Every Narrow (classMember config kind t).1 := by
  unfold classMember
  split
  · exact every_none
  · cases kind with
    | category => exact every_some.2 nofun
    | concept => exact every_some.2 nofun

theorem narrow_articleMember (config : Config) (t : Text) :
    Every Narrow (articleMember config t).1 := by
  unfold articleMember
  split
  · next name _ =>
    cases config.namespaceId? name with
    | none => exact every_none
    | some id => exact every_some.2 nofun
  · split
    · exact every_some.2 nofun
    · exact every_none

/-- A property condition says something, whatever it says of the value. -/
theorem narrow_describe (c : Chain) (inner : Description) : Narrow (c.describe inner) := by
  unfold Chain.describe
  cases c.outer with
  | nil => exact nofun
  | cons property outer => exact nofun

theorem narrow_readClass (kind : ClassKind) {result : Option Description}
    (hresult : Every Narrow result) (s : State) :
    Every Narrow (r.readClass kind result s).result := by
  have hmember (s : State) (result : Option Description) (t : Text)
      (hresult : Every Narrow result) :
      Every Narrow (r.combine .disjunctive result (classMember r.config kind t).1 s).result :=
    narrow_combine _ .disjunctive hresult (narrow_classMember r.config kind t)
  fun_induction readClass r kind result s with
  | case1 result s name token hend => exact hresult
  | case2 result s name token hend combined following hmore ih =>
    apply ih
    simp only [combined]
    split
    · exact hresult
    · exact hmember _ _ _ hresult
  | case3 result s name token hend combined following hmore =>
    simp only [combined]
    split
    · exact hresult
    · exact hmember _ _ _ hresult

theorem narrow_combineAll {result : Option Description} {ds : List (Option Description)}
    (hresult : Every Narrow result) (hds : ∀ d ∈ ds, Every Narrow d) (s : State) :
    Every Narrow (r.combineAll result ds s).result := by
  induction ds generalizing result s with
  | nil => exact hresult
  | cons d ds ih =>
    obtain ⟨hd, hds⟩ := List.forall_mem_cons.1 hds
    exact ih (narrow_combine _ .disjunctive hresult hd) hds _

theorem narrow_conclude (mark : Nat) {p : Progress} (hp : p.All Narrow) (s : State) :
    Every Narrow (r.conclude mark p s).result := by
  unfold conclude
  split
  · exact every_none
  · exact narrow_combineAll every_none hp.finished s

theorem narrow_leaveSubquery (mark : Nat) (restrict : Bool) (chunk : Text) {p : Progress}
    (hp : p.All Narrow) (s : State) :
    Every Narrow (r.leaveSubquery mark restrict chunk p s).result := by
  unfold leaveSubquery
  split
  · exact narrow_conclude mark hp s.leave
  · exact every_none

theorem narrow_addCondition {p : Progress} (hp : p.All Narrow) {o : Outcome}
    (ho : Every Narrow o.result) : (r.addCondition p o).1.All Narrow :=
  ⟨narrow_combine _ .conjunctive hp.current ho, hp.finished⟩

section

variable (hdefaults : r.defaults = none)

include hdefaults

theorem narrow_finishAlternative {p : Progress} (hp : p.All Narrow) (s : State) :
    (r.finishAlternative p s).1.All Narrow := by
  unfold finishAlternative
  rw [hdefaults]
  exact ⟨every_none, every_append hp.finished hp.current⟩

/-- Without a default restriction an atom ends with the condition it was
given. -/
theorem result_finishAtom_of_defaults (mark : Nat) (restrict restricted : Bool)
    (result : Option Description) (c : Chunk) :
    (r.finishAtom mark restrict restricted result c).result = result := by
  unfold finishAtom restrictAtom
  simp only [hdefaults]

theorem narrow_articleAtom (mark : Nat) (restrict : Bool) {result : Option Description}
    (hresult : Every Narrow result) (c : Chunk) :
    Every Narrow (r.articleAtom mark restrict result c).result := by
  fun_induction articleAtom r mark restrict result c with
  | case1 result c hquery =>
    rw [abandonAtom, result_finishAtom_of_defaults hdefaults]
    exact every_none
  | case2 result c hquery condition problem hc combined following hmore ih =>
    have hmember := narrow_articleMember r.config c.text
    rw [hc] at hmember
    exact ih (narrow_combine _ .disjunctive hresult hmember)
  | case3 result c hquery condition problem hc combined following hmore =>
    have hmember := narrow_articleMember r.config c.text
    rw [hc] at hmember
    rw [result_finishAtom_of_defaults hdefaults]
    exact narrow_combine _ .disjunctive hresult hmember

theorem narrow_closeProperty (mark : Nat) (restrict : Bool) (c : Chain) (values : Members) :
    Every Narrow (r.closeProperty mark restrict c values).result := by
  unfold closeProperty
  split
  · rw [result_finishAtom_of_defaults hdefaults]
    exact every_some.2 (narrow_describe c _)
  · rw [result_finishAtom_of_defaults hdefaults]
    exact every_some.2 (narrow_describe c _)

end

/-- Atoms and subqueries say something; values need not. -/
def narrowInvariant : Invariant where
  subquery _ _ o := Every Narrow o.result
  alternatives _ _ p _ o := p.All Narrow → Every Narrow o.result
  atom _ _ o := Every Narrow o.result
  property _ _ _ _ o := Every Narrow o.result
  values _ _ _ _ := True
  oneValue _ _ _ _ := True

theorem narrowInvariant_preserved (h : r.defaults = none) : narrowInvariant.Preserved r where
  subquery_nil restrict s _ := narrow_conclude _ (all_start restrict) _
  subquery_alternatives restrict s _ ho := ho (all_start restrict)
  finish mark restrict p s _ hp := narrow_conclude mark (narrow_finishAlternative h hp _) _
  openAtom mark restrict p s p' s' _ heq hatom ho hp := by
    have hadd := narrow_addCondition (r := r) hp hatom
    rw [heq] at hadd
    exact ho hadd
  openQuery mark restrict p s p' s' _ heq hsub ho hp := by
    have hadd := narrow_addCondition (r := r) hp hsub
    rw [heq] at hadd
    exact ho hadd
  or mark restrict p s p' s' _ heq ho hp := by
    have hfinish := narrow_finishAlternative h hp (r.next s).state
    rw [heq] at hfinish
    exact ho hfinish
  closeQuery mark restrict p s _ hp :=
    narrow_leaveSubquery mark restrict _ (narrow_finishAlternative h hp _) _
  wildcard mark restrict p s _ ho := ho
  unexpected mark restrict p s s' _ _ ho := ho
  classAtom kind restrict s _ := by
    show Every Narrow (r.classAtom kind _ restrict _).result
    rw [classAtom, result_finishAtom_of_defaults h]
    exact narrow_readClass kind every_none _
  emptyAtom restrict s _ _ := by
    show Every Narrow (r.finishAtom _ restrict false none _).result
    rw [result_finishAtom_of_defaults h]
    exact every_none
  escapedAtom restrict s _ _ := narrow_articleAtom h _ restrict every_none _
  articleAtom restrict s _ _ _ := narrow_articleAtom h _ restrict every_none _
  propertyAtom restrict s _ _ ho := ho
  property_error mark restrict name s problem _ := by
    show Every Narrow (r.abandonAtom mark restrict _).result
    rw [abandonAtom, result_finishAtom_of_defaults h]
    exact every_none
  property_ok mark restrict name s c _ _ := narrow_closeProperty h mark restrict c _
  values_more _ _ _ _ _ _ _ _ _ _ := trivial
  values_last _ _ _ _ _ := trivial
  value_wildcard _ _ _ _ := trivial
  value_openQuery _ _ _ _ _ _ _ := trivial
  value_delimiter _ _ _ _ _ := trivial
  value_literal _ _ _ _ := trivial

/-- Without a default restriction, nothing but a problem makes a query one that
every page satisfies. -/
theorem diagnostics_ne_nil_of_thing (hdefaults : r.defaults = none) {query : Text}
    {ps : List PrintRequest} (h : (r.read query).description = .thing ps) :
    (r.read query).state.diagnostics ≠ [] := by
  have hnarrow : Every Narrow (r.readSubquery false (.start query)).val.result :=
    (narrowInvariant_preserved hdefaults).subquery false (.start query)
  intro hquiet
  have hbefore : (r.readSubquery false (.start query)).val.state.diagnostics.length = 0 := by
    have hle := (precedes_read r query).length_le
    rw [hquiet] at hle
    exact Nat.le_zero.1 hle
  cases hresult : (r.readSubquery false (.start query)).val.result with
  | none =>
    have hlt := length_lt_readSubquery (r := r) false (.start query) hresult
    rw [hbefore] at hlt
    exact Nat.not_lt_zero _ hlt
  | some d =>
    rw [hresult] at hnarrow
    cases hrestricted : (r.readSubquery false (.start query)).val.restricted with
    | true =>
      simp only [read, hresult, hrestricted, if_true, Option.getD_some] at h
      exact every_some.1 hnarrow ps h
    | false =>
      have hstate := read_combine hrestricted
      rw [hdefaults, hresult] at hstate
      rcases combine_first r .conjunctive d (r.readSubquery false (.start query)).val.state with
        hsome | hlt
      · -- the condition was permitted, and it is not `Thing`
        obtain ⟨e, he⟩ := Option.isSome_iff_exists.1 hsome
        have hcombined : Every Narrow (r.combine .conjunctive none (some d)
            (r.readSubquery false (.start query)).val.state).result :=
          narrow_combine r.config.features .conjunctive every_none hnarrow
        rw [he] at hcombined
        simp only [read, hresult, hrestricted, hdefaults, he, Bool.false_eq_true, if_false,
          Option.getD_some] at h
        exact every_some.1 hcombined ps h
      · rw [← hstate, hquiet] at hlt
        exact Nat.not_lt_zero _ hlt

-- ============================================================ whole queries

/-- Combinations that report nothing drop nothing. -/
theorem problem_eq_none_of_state {mode : Mode} {current incoming : Option Description}
    {s : State} (h : (r.combine mode current incoming s).state.diagnostics = []) :
    (InlineQuery.combine r.config.features mode current incoming).problem = none := by
  rw [state_combine] at h
  cases hproblem : (InlineQuery.combine r.config.features mode current incoming).problem with
  | none => rfl
  | some problem =>
    rw [hproblem] at h
    exact absurd h (List.append_ne_nil_of_right_ne_nil _ nofun)

/-- **No failure is silent.** An atom or a subquery without a condition has
reported something by its end, and diagnostics are only ever added, by every
call and between calls. So without a default restriction a query that every
page satisfies comes with a diagnostic, and in reading a query without
diagnostics every atom and every subquery, at any depth, had a condition, and
every combination accepted what came in. -/
theorem failures_are_reported (r : Reader) :
    (∀ restrict s, (r.readAtom restrict s).val.result = none →
      s.diagnostics.length < (r.readAtom restrict s).val.state.diagnostics.length) ∧
    (∀ restrict s, (r.readSubquery restrict s).val.result = none →
      s.diagnostics.length < (r.readSubquery restrict s).val.state.diagnostics.length) ∧
    (∀ call : Call, call.before.diagnostics <+: (call.after r).diagnostics) ∧
    (∀ call call', r.Makes call call' →
      call.before.diagnostics <+: call'.before.diagnostics ∧
        (call'.after r).diagnostics <+: (call.after r).diagnostics) ∧
    (r.defaults = none → ∀ query ps, (r.read query).description = .thing ps →
      (r.read query).state.diagnostics ≠ []) ∧
    ∀ query, (r.read query).state.diagnostics = [] →
      (∀ restrict s, r.Reached query (.atom restrict s) →
        (r.readAtom restrict s).val.result.isSome = true) ∧
      (∀ restrict s, r.Reached query (.subquery restrict s) →
        (r.readSubquery restrict s).val.result.isSome = true) ∧
      ∀ mode current incoming s, r.Reached query (.combination mode current incoming s) →
        (InlineQuery.combine r.config.features mode current incoming).problem = none := by
  refine ⟨length_lt_readAtom, length_lt_readSubquery, Call.precedes r,
    fun _ _ h => ⟨h.precedes_before, h.precedes_after⟩,
    fun hdefaults _ _ h => diagnostics_ne_nil_of_thing hdefaults h, fun query hquiet => ?_⟩
  refine ⟨?_, ?_, ?_⟩
  · intro restrict s hreached
    have hafter := (hreached.diagnostics_eq_nil hquiet).1
    rw [Option.isSome_iff_ne_none]
    intro hnone
    have hlt := length_lt_readAtom restrict s hnone
    rw [show (r.readAtom restrict s).val.state.diagnostics = [] from hafter] at hlt
    exact Nat.not_lt_zero _ hlt
  · intro restrict s hreached
    have hafter := (hreached.diagnostics_eq_nil hquiet).1
    rw [Option.isSome_iff_ne_none]
    intro hnone
    have hlt := length_lt_readSubquery restrict s hnone
    rw [show (r.readSubquery restrict s).val.state.diagnostics = [] from hafter] at hlt
    exact Nat.not_lt_zero _ hlt
  · intro mode current incoming s hreached
    exact problem_eq_none_of_state (hreached.diagnostics_eq_nil hquiet).1

end Reader

end InlineQuery
