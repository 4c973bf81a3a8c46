/-
Every query that is understood honours the default namespaces.

The default restriction gets into a query at four places: at the root, at
the end of an alternative, into earlier alternatives after the fact, and for
a wildcard value. Which of them applies is steered by flags that atoms,
alternatives and subqueries hand on.

# The invariant

`FixesNamespace` says of a tree what the flags promise. A flag is only ever
true of a condition that fixes its namespace: an outcome that is marked as
restricted does (`Settled`), the alternative under way does once one of its
atoms did, and the finished alternatives do as soon as one of them did or
the subquery was asked to restrict itself (`Progress.Settled`). At the end
the disjunction of the alternatives inherits it from all of them.

An atom that names pages is marked as restricted even if it turns out to
name none. Such an atom is reported; hence the invariant speaks of quiet
readings only, those that end with the diagnostics they began with, and by
`State.Precedes` every part of a quiet reading is quiet.
-/
import InlineQuery.Proofs.Reading.Combination
import InlineQuery.Proofs.Reading.Diagnostics

namespace InlineQuery

namespace Description

-- ============================================ conditions on the namespace

/-- The condition fixes the namespace of the pages that satisfy it: it names
a namespace or a page, or one of several conjuncts does, or every one of
several disjuncts. -/
inductive FixesNamespace : Description → Prop
  | inNamespace (id : NamespaceId) (label : Text) (ps : List PrintRequest) :
    FixesNamespace (.inNamespace id label ps)
  | page (item : Item) (comparator : Comparator) (ps : List PrintRequest) :
    FixesNamespace (.value item none comparator ps)
  | conjunction {child : Description} {children : List Description} (ps : List PrintRequest) :
    child ∈ children → FixesNamespace child → FixesNamespace (.conjunction children ps)
  | disjunction {children : List Description} (categoryIndex : Option Nat)
      (ps : List PrintRequest) :
    (∀ child ∈ children, FixesNamespace child) →
      FixesNamespace (.disjunction children categoryIndex false ps)

theorem fixesNamespace_withPrints {d : Description} (requests : List PrintRequest)
    (h : d.FixesNamespace) : (d.withPrints requests).FixesNamespace := by
  cases h with
  | inNamespace id label => exact .inNamespace id label requests
  | page item comparator => exact .page item comparator requests
  | conjunction _ hchild h => exact .conjunction requests hchild h
  | disjunction categoryIndex _ h => exact .disjunction categoryIndex requests h

theorem disjunctHeritable_fixesNamespace : DisjunctHeritable FixesNamespace where
  withPrints _ requests h := fixesNamespace_withPrints requests h
  children _ _ _ _ h := by
    cases h with
    | disjunction _ _ h => exact h
  merge _ _ _ _ _ _ h _ := nomatch h

end Description

open Description

/-- A conjunction fixes the namespace with its first child that does, and
keeps that child whatever is inserted later. -/
theorem Conjuncts.exists_fixesNamespace_insert {c : Conjuncts} {d : Description}
    (h : (∃ x ∈ c.children, x.FixesNamespace) ∨ d.FixesNamespace) :
    ∃ x ∈ (c.insert d).children, x.FixesNamespace := by
  rcases h with ⟨x, hx, hfixes⟩ | hfixes
  · refine ⟨x, ?_, hfixes⟩
    cases d with
    | thing => exact hx
    | _ => exact List.mem_append_left _ hx
  · cases hfixes with
    | inNamespace id label ps =>
      exact ⟨_, List.mem_append_right _ List.mem_cons_self, .inNamespace id label []⟩
    | page item comparator ps =>
      exact ⟨_, List.mem_append_right _ List.mem_cons_self, .page item comparator []⟩
    | conjunction ps hchild h => exact ⟨_, List.mem_append_right _ hchild, h⟩
    | disjunction categoryIndex ps h =>
      exact ⟨_, List.mem_append_right _ List.mem_cons_self, .disjunction categoryIndex [] h⟩

/-- Conditions that fix the namespace never make a disjunction true. -/
theorem Disjuncts.always_insert {d : Disjuncts} {child : Description}
    (hd : d.always = false) (hchild : child.FixesNamespace) : (d.insert child).always = false := by
  induction child using Description.induct generalizing d with
  | thing | categories => cases hchild
  | disjunction inner categoryIndex always ps ih =>
    cases hchild with
    | disjunction _ _ hfixes =>
      simp only [insert, addPrints, hd, insertAll_eq_foldl]
      refine List.foldlRecOn inner insert (motive := fun d => d.always = false) ?_
        fun d hd c hc => ih c hc hd (hfixes c hc)
      rfl
  | _ =>
    simp only [insert, addPrints, hd]
    rfl

theorem Description.fixesNamespace_anyOf {children : List Description}
    (h : ∀ d ∈ children, d.FixesNamespace) : (anyOf children).FixesNamespace := by
  have halways : (children.foldl Disjuncts.insert Disjuncts.empty).always = false :=
    List.foldlRecOn children Disjuncts.insert (motive := fun d => d.always = false) rfl
      fun d hd c hc => Disjuncts.always_insert hd (h c hc)
  have hchildren := forall_anyOf disjunctHeritable_fixesNamespace h
  unfold anyOf Disjuncts.toDescription at hchildren ⊢
  rw [halways]
  exact .disjunction _ _ hchildren

-- ============================================================ combinations

/-- The condition, if there is one, fixes the namespace. -/
def AllFix (result : Option Description) : Prop := ∀ d ∈ result, d.FixesNamespace

theorem allFix_none : AllFix none := fun _ h => nomatch h

/-- There is a condition, and it fixes the namespace. -/
def Fixes (result : Option Description) : Prop := ∃ d ∈ result, d.FixesNamespace

theorem Fixes.allFix {result : Option Description} (h : Fixes result) : AllFix result := by
  obtain ⟨d, hd, hfixes⟩ := h
  intro e he
  cases hd
  cases he
  exact hfixes

theorem AllFix.fixes {result : Option Description} (h : AllFix result)
    (hsome : result.isSome = true) : Fixes result := by
  obtain ⟨d, hd⟩ := Option.isSome_iff_exists.1 hsome
  exact ⟨d, hd, h d hd⟩

section permitted

variable {permitted : FeatureSet} {current incoming : Option Description}

/-- Where everything is permitted, a combination loses nothing. -/
theorem isSome_combine (hall : ∀ feature, permitted.has feature = true) (mode : Mode)
    (current incoming : Option Description) :
    (combine permitted mode current incoming).result.isSome =
      (current.isSome || incoming.isSome) := by
  have h := combine_combination permitted mode current incoming
  generalize combine permitted mode current incoming = combined at h
  cases h with
  | refused _ d feature h hnot => exact absurd (hall feature) (by simp [hnot])
  | separate existing d hnone hmode => exact absurd (hall mode.feature) (by simp [hmode])
  | nothing => simp
  | _ => rfl

/-- One of two conditions that both have to hold is enough. -/
theorem combine_conjunctive_fixes (hall : ∀ feature, permitted.has feature = true)
    (h : Fixes current ∨ Fixes incoming) :
    Fixes (combine permitted .conjunctive current incoming).result := by
  have hcombination := combine_combination permitted .conjunctive current incoming
  generalize combine permitted .conjunctive current incoming = combined at hcombination
  cases hcombination with
  | refused _ d feature _ hnot => exact absurd (hall feature) (by simp [hnot])
  | separate existing d hnone hmode =>
    exact absurd (hall Mode.conjunctive.feature) (by simp [hmode])
  | nothing =>
    rcases h with h | ⟨d, hd, -⟩
    · exact h
    · cases hd
  | first d _ =>
    rcases h with ⟨e, he, -⟩ | h
    · cases he
    · exact h
  | extended existing d extended _ hextended =>
    obtain ⟨-, children, ps, rfl, rfl⟩ | ⟨hmode, -⟩ := Mode.extend?_cases hextended
    · have hinsert : ∃ x ∈ (Conjuncts.insert ⟨children, ps⟩ d).children, x.FixesNamespace := by
        refine Conjuncts.exists_fixesNamespace_insert ?_
        rcases h with ⟨e, ⟨⟩, hfixes⟩ | ⟨e, ⟨⟩, hfixes⟩
        · cases hfixes with
          | conjunction _ hchild hfixes => exact .inl ⟨_, hchild, hfixes⟩
        · exact .inr hfixes
      obtain ⟨x, hx, hfixes⟩ := hinsert
      exact ⟨_, rfl, .conjunction _ hx hfixes⟩
    · cases hmode
  | joined existing d _ hnone hmode =>
    have hinsert : ∃ x ∈ (Conjuncts.insert (Conjuncts.insert .empty existing) d).children,
        x.FixesNamespace := by
      refine Conjuncts.exists_fixesNamespace_insert ?_
      rcases h with ⟨e, ⟨⟩, hfixes⟩ | ⟨e, ⟨⟩, hfixes⟩
      · exact .inl (Conjuncts.exists_fixesNamespace_insert (.inr hfixes))
      · exact .inr hfixes
    obtain ⟨x, hx, hfixes⟩ := hinsert
    exact ⟨_, rfl, .conjunction _ hx hfixes⟩

/-- Of two alternatives, both have to fix the namespace. -/
theorem combine_disjunctive_allFix (hcurrent : AllFix current) (hincoming : AllFix incoming) :
    AllFix (combine permitted .disjunctive current incoming).result := by
  have hcombination := combine_combination permitted .disjunctive current incoming
  generalize combine permitted .disjunctive current incoming = combined at hcombination
  cases hcombination with
  | nothing => exact hcurrent
  | refused => exact hcurrent
  | separate => exact hcurrent
  | first => exact hincoming
  | extended existing d extended _ hextended =>
    rintro e ⟨⟩
    obtain ⟨hmode, -⟩ | ⟨-, children, i, always, ps, rfl, rfl⟩ := Mode.extend?_cases hextended
    · cases hmode
    · have hd := hincoming d rfl
      have hexisting := hcurrent _ rfl
      cases hexisting with
      | disjunction _ _ hfixes =>
        have halways := Disjuncts.always_insert (d := ⟨children, i, false, ps⟩) rfl hd
        have hchildren := Disjuncts.forall_insert (d := ⟨children, i, false, ps⟩)
          disjunctHeritable_fixesNamespace hfixes hd
        unfold Disjuncts.toDescription
        rw [halways]
        exact .disjunction _ _ hchildren
  | joined existing d _ hnone hmode =>
    rintro e ⟨⟩
    have hd := hincoming d rfl
    have hexisting := hcurrent existing rfl
    obtain ⟨hmode, -⟩ | ⟨-, xs, i, ps, ys, k, qs, rfl, -⟩ | ⟨-, -, hjoin⟩ :=
      Mode.join_cases .disjunctive existing d
    · cases hmode
    · cases hexisting
    · rw [hjoin]
      exact fixesNamespace_anyOf
        (List.forall_mem_cons.2 ⟨hexisting, List.forall_mem_singleton.2 hd⟩)

end permitted

namespace Reader

-- =================================================================== atoms

/-- What an atom that names pages accepts fixes the namespace. -/
theorem allFix_articleMember (config : Config) (t : Text) :
    AllFix (articleMember config t).1 := by
  intro d hd
  unfold articleMember at hd
  split at hd
  · obtain ⟨id, -, rfl⟩ := Option.map_eq_some_iff.1 hd
    exact .inNamespace _ _ _
  · split at hd
    · cases hd
      exact .page _ _ _
    · cases hd

theorem allFix_articleAtom {r : Reader} (mark : Nat) (c : Chunk) :
    AllFix (r.articleAtom mark false none c).result := by
  refine articleAtom_keeps allFix_none (fun result t s hresult => ?_) allFix_none c
  exact combine_disjunctive_allFix hresult (allFix_articleMember r.config t)

/-- Atoms always name something, or say that they do not. -/
theorem isSome_of_finishAtom_quiet {r : Reader} {mark : Nat} {restricted : Bool}
    {result : Option Description} {c : Chunk} (hmark : mark ≤ c.state.diagnostics.length)
    (hquiet : (r.finishAtom mark false restricted result c).state.diagnostics.length = mark) :
    result.isSome = true := by
  cases result with
  | some d => rfl
  | none =>
    have := length_lt_finishAtom_none r false restricted hmark
    omega

theorem isSome_of_articleAtom_quiet {r : Reader} {mark : Nat} {result : Option Description}
    {c : Chunk} (hmark : mark ≤ c.state.diagnostics.length)
    (hquiet : (r.articleAtom mark false result c).state.diagnostics.length = mark) :
    (r.articleAtom mark false result c).result.isSome = true := by
  fun_induction articleAtom r mark false result c with
  | case1 result c h =>
    have hskipped : mark ≤
        (r.skipToClosing (c.state.report .misplacedSubquery)).2.state.diagnostics.length := by
      rw [diagnostics_skipToClosing]
      exact Nat.le_trans hmark ((State.Precedes.refl c.state).report _).length_le
    have := length_lt_finishAtom_none r false false hskipped
    rw [abandonAtom] at hquiet
    omega
  | case2 result c h condition problem hc combined following hmore ih =>
    refine ih (Nat.le_trans hmark ?_) hquiet
    exact ((precedes_reportAny problem c.state).trans (precedes_combine r _ _ _ _)).length_le
  | case3 result c h condition problem hc combined following hmore =>
    rw [result_finishAtom]
    refine isSome_of_finishAtom_quiet (Nat.le_trans hmark ?_) hquiet
    exact ((precedes_reportAny problem c.state).trans (precedes_combine r _ _ _ _)).length_le

-- ============================================================ alternatives

variable {r : Reader} {defaults : Description}

/-- The flags of a subquery in progress tell the truth: the alternative under
way fixes the namespace if it is marked so, and so does every earlier one
once they all have to. -/
structure Progress.Settled (p : Progress) : Prop where
  current : p.restricted = true → Fixes p.current
  finished : p.restrict = true → ∀ d ∈ p.finished, AllFix d

/-- What an outcome says of a quiet reading: there is a condition, and it
fixes the namespace if `fixed` holds. -/
def Outcome.Settled (o : Outcome) (fixed : Prop) : Prop :=
  o.result.isSome = true ∧ (fixed → AllFix o.result)

/-- Once the alternatives have to be restricted, they always have to. -/
theorem restrict_finishAlternative {p : Progress} (h : p.restrict = true) (s : State) :
    (r.finishAlternative p s).1.restrict = true := by
  unfold finishAlternative
  split
  · exact h
  · split
    · rfl
    · split
      · exact h
      · exact h

/-- What a subquery says of itself is what its alternatives have to do. -/
theorem restrict_of_restricted_conclude {mark : Nat} {p : Progress} {s : State}
    (h : (r.conclude mark p s).restricted = true) : p.restrict = true := by
  unfold conclude at h
  dsimp only at h
  split at h
  · cases h
  · exact h

section permitted

variable (hall : ∀ feature, r.config.features.has feature = true)

include hall

theorem fixes_combine {current incoming : Option Description} (s : State)
    (h : Fixes current ∨ Fixes incoming) :
    Fixes (r.combine .conjunctive current incoming s).result :=
  combine_conjunctive_fixes hall h

theorem settled_addCondition {p : Progress} (hp : p.Settled) {o : Outcome}
    (ho : o.Settled (o.restricted = true)) : (r.addCondition p o).1.Settled where
  current h := by
    refine fixes_combine hall o.state ?_
    rcases Bool.or_eq_true_iff.1 h with h | h
    · exact .inl (hp.current h)
    · exact .inr ((ho.2 h).fixes ho.1)
  finished := hp.finished

theorem allFix_restrictAll (hdefaults : defaults.FixesNamespace)
    (ds : List (Option Description)) (s : State) :
    ∀ d ∈ (r.restrictAll defaults ds s).1, AllFix d := by
  induction ds generalizing s with
  | nil => exact fun d hd => nomatch hd
  | cons d ds ih =>
    intro x hx
    rw [restrictAll] at hx
    rcases List.mem_cons.1 hx with rfl | hx
    · exact (fixes_combine hall s (.inr ⟨defaults, rfl, hdefaults⟩)).allFix
    · exact ih _ x hx

/-- Whichever alternative settles its namespace first, from then on all of
them do: the earlier ones are restricted at once, the later ones at their
ends. -/
theorem settled_finishAlternative (heq : r.defaults = some defaults)
    (hdefaults : defaults.FixesNamespace) {p : Progress} (hp : p.Settled) (s : State) :
    (r.finishAlternative p s).1.Settled := by
  have happend {ds : List (Option Description)} {d : Option Description}
      (hds : ∀ d ∈ ds, AllFix d) (hd : AllFix d) : ∀ x ∈ ds ++ [d], AllFix x :=
    List.forall_mem_append.2 ⟨hds, List.forall_mem_singleton.2 hd⟩
  unfold finishAlternative
  rw [heq]
  dsimp only
  cases hrestricted : p.restricted <;> cases hrestrict : p.restrict
  · -- nobody has settled anything yet
    exact ⟨(fun h => nomatch h), (fun h => nomatch h)⟩
  · -- the alternative did not settle its namespace and has to
    exact ⟨(fun h => nomatch h), fun _ => happend (hp.finished hrestrict)
      (fixes_combine hall s (.inr ⟨defaults, rfl, hdefaults⟩)).allFix⟩
  · -- it is the first to settle it
    exact ⟨(fun h => nomatch h), fun _ => happend
      (allFix_restrictAll hall hdefaults p.finished s) (hp.current hrestricted).allFix⟩
  · -- it settled it, as the earlier ones did
    exact ⟨(fun h => nomatch h), fun _ => happend (hp.finished hrestrict)
      (hp.current hrestricted).allFix⟩

theorem combineAll_settled (result : Option Description) {ds : List (Option Description)}
    (hds : ∀ d ∈ ds, d.isSome = true) (s : State) :
    ((r.combineAll result ds s).result.isSome = (result.isSome || !ds.isEmpty)) ∧
      (AllFix result → (∀ d ∈ ds, AllFix d) → AllFix (r.combineAll result ds s).result) := by
  induction ds generalizing result s with
  | nil => exact ⟨by simp [combineAll], fun h _ => h⟩
  | cons d ds ih =>
    have hd := hds d List.mem_cons_self
    have hsome : (r.combine .disjunctive result d s).result.isSome = true := by
      have := isSome_combine hall .disjunctive result d
      rw [hd, Bool.or_true] at this
      exact this
    obtain ⟨hihsome, hihfix⟩ := ih _ (fun x hx => hds x (List.mem_cons_of_mem d hx))
      (r.combine .disjunctive result d s).state
    rw [combineAll]
    constructor
    · rw [hihsome, hsome]
      simp
    · intro hresult hfix
      exact hihfix (combine_disjunctive_allFix hresult (hfix d List.mem_cons_self))
        fun x hx => hfix x (List.mem_cons_of_mem d hx)

/-- A subquery that ends quietly has not lost anything, and its condition
fixes the namespace as soon as its alternatives have to. -/
theorem settled_conclude {mark : Nat} {p : Progress} (hp : p.Settled) {s : State}
    (hmark : mark ≤ s.diagnostics.length)
    (hquiet : (r.conclude mark p s).state.diagnostics.length = mark) :
    (r.conclude mark p s).Settled (p.restrict = true) := by
  by_cases hlost : (p.finished.isEmpty || p.finished.any Option.isNone) = true
  · exact absurd hquiet (Nat.ne_of_gt (length_lt_conclude_lost r hmark hlost))
  · unfold conclude
    rw [if_neg hlost]
    simp only [Bool.or_eq_true, List.any_eq_true, not_or, not_exists, not_and] at hlost
    have hsome : ∀ d ∈ p.finished, d.isSome = true
      | none, hd => absurd rfl (hlost.2 none hd)
      | some _, _ => rfl
    obtain ⟨hresult, hfix⟩ := combineAll_settled hall none hsome s
    refine ⟨?_, fun hrestrict => hfix allFix_none (hp.finished hrestrict)⟩
    rw [hresult]
    simpa using hlost.1

theorem settled_leaveSubquery {mark : Nat} {restrict : Bool} {chunk : Text} {p : Progress}
    (hp : p.Settled) (hrestrict : restrict = true → p.restrict = true) {s : State}
    (hmark : mark ≤ s.diagnostics.length)
    (hquiet : (r.leaveSubquery mark restrict chunk p s).state.diagnostics.length = mark) :
    (r.leaveSubquery mark restrict chunk p s).Settled
      (restrict = true ∨ (r.leaveSubquery mark restrict chunk p s).restricted = true) := by
  unfold leaveSubquery at hquiet ⊢
  split
  · next hopen =>
    rw [if_pos hopen] at hquiet
    have h := settled_conclude hall hp (s := s.leave) hmark hquiet
    refine ⟨h.1, fun hfixed => h.2 ?_⟩
    rcases hfixed with hfixed | hfixed
    · exact hrestrict hfixed
    · exact restrict_of_restricted_conclude hfixed
  · next hnot =>
    -- there was no subquery to close, which is reported
    rw [if_neg hnot] at hquiet
    dsimp only at hquiet
    rw [State.length_report] at hquiet
    have hleave : s.leave.diagnostics = s.diagnostics := rfl
    rw [hleave] at hquiet
    omega

end permitted

-- ============================================================= all readings

/-- Quiet readings are settled: a subquery is if it was asked to be
restricted, or says it is, and an atom if it says so. -/
def settledInvariant : Invariant where
  subquery restrict s o := o.state.diagnostics.length = s.diagnostics.length →
    o.Settled (restrict = true ∨ o.restricted = true)
  alternatives mark restrict p s o := mark ≤ s.diagnostics.length →
    o.state.diagnostics.length = mark → (restrict = true → p.restrict = true) → p.Settled →
    o.Settled (restrict = true ∨ o.restricted = true)
  atom restrict s o := restrict = false → o.state.diagnostics.length = s.diagnostics.length →
    o.Settled (o.restricted = true)
  property mark restrict _ s o := restrict = false → mark ≤ s.diagnostics.length →
    o.state.diagnostics.length = mark → o.Settled (o.restricted = true)
  values _ _ _ _ := True
  oneValue _ _ _ _ := True

theorem settled_start (restrict : Bool) : (Progress.start restrict).Settled :=
  ⟨(fun h => nomatch h), fun _ _ h => nomatch h⟩

/-- An outcome that makes no claim only has to be there. -/
theorem Outcome.settled_of_not_restricted {o : Outcome} (hsome : o.result.isSome = true)
    (hrestricted : o.restricted = false) : o.Settled (o.restricted = true) :=
  ⟨hsome, fun h => by simp [hrestricted] at h⟩

theorem settledInvariant_preserved (hall : ∀ feature, r.config.features.has feature = true)
    (heq : r.defaults = some defaults) (hdefaults : defaults.FixesNamespace) :
    settledInvariant.Preserved r where
  subquery_nil restrict s _ hquiet := by
    -- the query ends at once, and losing an empty subquery is reported
    have h := settled_conclude hall (settled_start restrict)
      (precedes_leaveAtEnd (r.next s).state).length_le hquiet
    refine ⟨h.1, fun hfixed => h.2 ?_⟩
    rcases hfixed with hfixed | hfixed
    · exact hfixed
    · exact restrict_of_restricted_conclude hfixed
  subquery_alternatives restrict s _ h hquiet :=
    h (Nat.le_refl _) hquiet (fun h => h) (settled_start restrict)
  finish mark restrict p s _ hmark hquiet hrestrict hp := by
    have hle := ((precedes_finishAlternative r p (r.next s).state).trans
      (precedes_leaveAtEnd _)).length_le
    have h := settled_conclude hall (settled_finishAlternative hall heq hdefaults hp _)
      (Nat.le_trans hmark hle) hquiet
    refine ⟨h.1, fun hfixed => h.2 ?_⟩
    rcases hfixed with hfixed | hfixed
    · exact restrict_finishAlternative (hrestrict hfixed) _
    · exact restrict_of_restricted_conclude hfixed
  openAtom mark restrict p s p' s' _ hadd hatom ho hmark hquiet hrestrict hp := by
    have hfirst := (precedes_readAtom r false (r.next s).state).length_le
    have hsecond := (precedes_addCondition r p (r.readAtom false (r.next s).state).val).length_le
    have hthird := (precedes_readAlternatives r mark restrict p' s').length_le
    rw [diagnostics_next] at hfirst
    rw [hadd] at hsecond
    dsimp only at hsecond
    have hatom := hatom rfl (by rw [diagnostics_next]; omega)
    have hp' := settled_addCondition hall hp hatom
    have hkept : (r.addCondition p (r.readAtom false (r.next s).state).val).1.restrict =
      p.restrict := rfl
    rw [hadd] at hp' hkept
    exact ho (by omega) hquiet (fun h => hkept.trans (hrestrict h)) hp'
  openQuery mark restrict p s p' s' _ hadd hsub ho hmark hquiet hrestrict hp := by
    have hfirst :=
      (precedes_readSubquery r false ((r.next s).state.enter .subquery)).length_le
    have hsecond := (precedes_addCondition r p
      (r.readSubquery false ((r.next s).state.enter .subquery)).val).length_le
    have hthird := (precedes_readAlternatives r mark restrict p' s').length_le
    rw [diagnostics_enter, diagnostics_next] at hfirst
    rw [hadd] at hsecond
    dsimp only at hsecond
    have hsub := hsub (by rw [diagnostics_enter, diagnostics_next]; omega)
    have hp' := settled_addCondition hall hp ⟨hsub.1, fun h => hsub.2 (.inr h)⟩
    have hkept : (r.addCondition p
      (r.readSubquery false ((r.next s).state.enter .subquery)).val).1.restrict =
      p.restrict := rfl
    rw [hadd] at hp' hkept
    exact ho (by omega) hquiet (fun h => hkept.trans (hrestrict h)) hp'
  or mark restrict p s p' s' _ hfinish ho hmark hquiet hrestrict hp := by
    obtain ⟨rfl, rfl⟩ := Prod.mk.inj hfinish
    refine ho (Nat.le_trans hmark ?_) hquiet
      (fun h => restrict_finishAlternative (hrestrict h) _)
      (settled_finishAlternative hall heq hdefaults hp _)
    exact (precedes_finishAlternative r p (r.next s).state).length_le
  closeQuery mark restrict p s _ hmark hquiet hrestrict hp := by
    refine settled_leaveSubquery hall (settled_finishAlternative hall heq hdefaults hp _)
      (fun h => restrict_finishAlternative (hrestrict h) _) (Nat.le_trans hmark ?_) hquiet
    exact (precedes_finishAlternative r p (r.next s).state).length_le
  wildcard mark restrict p s _ ho hmark := ho hmark
  unexpected mark restrict p s s' _ hreport ho hmark hquiet := by
    subst hreport
    have hle := (precedes_readAlternatives r mark restrict p
      ((r.next s).state.report (.unexpectedPart (r.next s).text))).length_le
    rw [State.length_report, diagnostics_next] at hle
    omega
  classAtom kind restrict s _ hrestrict hquiet := by
    subst hrestrict
    have hle := (precedes_readClass r kind none (r.opened s)).length_le
    unfold classAtom at hquiet ⊢
    refine Outcome.settled_of_not_restricted ?_ (restricted_finishAtom _ _ _)
    rw [result_finishAtom]
    exact isSome_of_finishAtom_quiet hle hquiet
  emptyAtom restrict s _ _ hrestrict hquiet := by
    have := length_lt_finishAtom_none r restrict false
      (c := ⟨Text.trim (r.firstChunk s), r.opened s⟩) (Nat.le_refl s.diagnostics.length)
    omega
  escapedAtom restrict s _ _ hrestrict hquiet := by
    subst hrestrict
    exact ⟨isSome_of_articleAtom_quiet (Nat.le_refl _) hquiet,
      fun _ => allFix_articleAtom _ _⟩
  articleAtom restrict s _ _ _ hrestrict hquiet := by
    subst hrestrict
    exact ⟨isSome_of_articleAtom_quiet (Nat.le_refl _) hquiet,
      fun _ => allFix_articleAtom _ _⟩
  propertyAtom restrict s _ _ ho hrestrict hquiet := ho hrestrict (Nat.le_refl _) hquiet
  property_error mark restrict name s problem _ hrestrict hmark hquiet := by
    have hle := (precedes_abandonAtom r mark restrict (s.report problem)).length_le
    rw [State.length_report] at hle
    omega
  property_ok mark restrict name s c _ _ hrestrict hmark hquiet := by
    subst hrestrict
    unfold closeProperty
    split
    · refine Outcome.settled_of_not_restricted ?_ (restricted_finishAtom _ _ _)
      rw [result_finishAtom]
      rfl
    · refine Outcome.settled_of_not_restricted ?_ (restricted_finishAtom _ _ _)
      rw [result_finishAtom]
      rfl
  values_more _ _ _ _ _ _ _ _ _ _ := trivial
  values_last _ _ _ _ _ := trivial
  value_wildcard _ _ _ _ := trivial
  value_openQuery _ _ _ _ _ _ _ := trivial
  value_delimiter _ _ _ _ _ := trivial
  value_literal _ _ _ _ := trivial

theorem fixesNamespace_restriction (config : Config) (ids : List NamespaceId) :
    (restriction config ids).FixesNamespace := by
  unfold restriction
  split
  · exact .inNamespace _ _ _
  · refine fixesNamespace_anyOf fun d hd => ?_
    obtain ⟨id, -, rfl⟩ := List.mem_map.1 hd
    exact .inNamespace _ _ _

/-- On a wiki with default namespaces that permits everything, a query that
is read without a diagnostic fixes the namespace of the pages it finds,
whichever way it came by it; and so does the condition of every subquery
that is read quietly as the value of a property. -/
theorem read_fixes_namespace (config : Config) (ids : List NamespaceId)
    (hdefaults : config.defaultNamespaces = some ids)
    (hall : ∀ feature, config.features.has feature = true) :
    (∀ query, ((ofConfig config).read query).state.diagnostics = [] →
        ((ofConfig config).read query).description.FixesNamespace) ∧
      ∀ s, ((ofConfig config).readSubquery true s).val.state.diagnostics = s.diagnostics →
        Fixes ((ofConfig config).readSubquery true s).val.result := by
  have heq : (ofConfig config).defaults = some (restriction config ids) := by
    rw [ofConfig, hdefaults]
    rfl
  have hrestriction := fixesNamespace_restriction config ids
  have hsettled : settledInvariant.Preserved (ofConfig config) :=
    settledInvariant_preserved hall heq hrestriction
  constructor
  · intro query hquiet
    have hgetD {result : Option Description} (h : Fixes result) :
        (result.getD (.thing [])).FixesNamespace := by
      obtain ⟨d, rfl, hfixes⟩ := h
      exact hfixes
    unfold read at hquiet ⊢
    dsimp only at hquiet ⊢
    split
    · next hrestricted =>
      rw [if_pos hrestricted] at hquiet
      have h := hsettled.subquery false (.start query) (by
        show _ = 0
        rw [hquiet]
        rfl)
      exact hgetD ((h.2 (.inr hrestricted)).fixes h.1)
    · exact hgetD (fixes_combine hall _ (.inl ⟨_, heq, hrestriction⟩))
  · intro s hquiet
    have h := hsettled.subquery true s (by rw [hquiet])
    exact (h.2 (.inl rfl)).fixes h.1

/-- An alternative that settles its namespace, behind one that does not; and
a subquery that is restricted because no part of it settles its own. -/
theorem read_fixes_namespace_alternatives :
    let config : Config := { defaultNamespaces := some [0] }
    let query := "[[A::+]]||[[:+]]".toList
    let s : State := ⟨"[[A::+]]</q>".toList, [.subquery, .atom], []⟩
    (((ofConfig config).read query).state.diagnostics = [] ∧
        ((ofConfig config).read query).description.FixesNamespace) ∧
      ((ofConfig config).readSubquery true s).val.state.diagnostics = s.diagnostics ∧
        Fixes ((ofConfig config).readSubquery true s).val.result := by
  intro config query s
  have hchain : chain config "A".toList = .ok ⟨[], ⟨"A".toList, false⟩, .page⟩ := rfl
  have hquiet : ((ofConfig config).read query).state.diagnostics = [] := by
    unfold read
    rw [readSubquery_ne_nil (by decide +kernel), readAlternatives_openAtom (by decide +kernel),
      readAtom_property (by decide +kernel) (by decide +kernel) (by decide +kernel)
        (by decide +kernel),
      readProperty_ok hchain,
      readValues_last (by rw [readOneValue_wildcard (by decide +kernel)]; decide +kernel),
      readOneValue_wildcard (by decide +kernel), readAlternatives_or (by decide +kernel),
      readAlternatives_openAtom (by decide +kernel),
      readAtom_article (by decide +kernel) (by decide +kernel) (by decide +kernel),
      articleAtom_last (by decide +kernel) (by decide +kernel),
      readAlternatives_finish (by decide +kernel)]
    decide +kernel
  have hquietValue : ((ofConfig config).readSubquery true s).val.state.diagnostics = [] := by
    rw [readSubquery_ne_nil (by decide +kernel), readAlternatives_openAtom (by decide +kernel),
      readAtom_property (by decide +kernel) (by decide +kernel) (by decide +kernel)
        (by decide +kernel),
      readProperty_ok hchain,
      readValues_last (by rw [readOneValue_wildcard (by decide +kernel)]; decide +kernel),
      readOneValue_wildcard (by decide +kernel), readAlternatives_closeQuery (by decide +kernel)]
    decide +kernel
  have hall : ∀ feature, config.features.has feature = true := by
    intro feature
    cases feature <;> rfl
  obtain ⟨hwhole, hvalue⟩ := read_fixes_namespace config [0] rfl hall
  exact ⟨⟨hquiet, hwhole query hquiet⟩, hquietValue, hvalue s hquietValue⟩

end Reader

end InlineQuery
