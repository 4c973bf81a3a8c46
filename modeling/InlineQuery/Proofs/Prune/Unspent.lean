/-
What is left of the budget behind a condition that was dropped.

A condition that is replaced by the one that always holds should have cost
nothing, and most have not: one that does not fit is dropped before anything
is spent on it. A disjunction is the exception. It may keep, and pay for, some
of its alternatives before one of them does not fit; then it becomes true and
is dropped with all of them, and the depth it was given is handed back, but not
the size.

So the depth is always as it was, the size that is gone is at most the size of
what was dropped, and everything is left if no disjunction can have been in
play. For the latter, the induction is on a statement about trees that cost
nothing rather than on one about empty conditions
(`left_prune_of_size_eq_zero`): a conjunction that costs nothing has no child
that does, while a child of one that was dropped may still be something.
-/
import InlineQuery.Proofs.Prune.Accounted

namespace InlineQuery

namespace Description

variable {d : Description}

-- ============================================================== alternatives

/-- There is a disjunction with alternatives in the tree that is not inside of
a property condition. -/
inductive OffersAlternatives : Description → Prop
  | disjunction {children : List Description} {categoryIndex : Option Nat} {always : Bool}
      {ps : List PrintRequest} :
    children ≠ [] → OffersAlternatives (.disjunction children categoryIndex always ps)
  | conjunct {child : Description} {children : List Description} {ps : List PrintRequest} :
    child ∈ children → OffersAlternatives child → OffersAlternatives (.conjunction children ps)

theorem offersAlternatives_conjunction {children : List Description} {ps : List PrintRequest} :
    (conjunction children ps).OffersAlternatives ↔
      ∃ child ∈ children, child.OffersAlternatives := by
  constructor
  · intro h
    cases h with
    | conjunct hchild hoffers => exact ⟨_, hchild, hoffers⟩
  · rintro ⟨child, hchild, hoffers⟩
    exact .conjunct hchild hoffers

/-- A container that is not empty and offers no alternatives is a conjunction of
conditions that offer none. -/
theorem IsContainer.eq_conjunction (h : IsContainer d) (hne : d.children ≠ [])
    (hd : ¬ d.OffersAlternatives) :
    ∃ children ps, d = .conjunction children ps ∧
      ∀ child ∈ children, ¬ child.OffersAlternatives := by
  cases d with
  | conjunction children ps =>
    rw [offersAlternatives_conjunction] at hd
    exact ⟨children, ps, rfl, fun child hchild hoffers => hd ⟨child, hchild, hoffers⟩⟩
  | disjunction children categoryIndex always ps => exact absurd (.disjunction hne) hd
  | _ => cases h

-- ====================================================== what has cost nothing

/-- Behind a child that has cost nothing, its siblings become what they would
have become without it. -/
theorem pruneAll_cons_of_left_eq {child : Description} {depth : Nat} {budget : Budget}
    (hleft : (prune ⟨budget.size, depth⟩ child).left = ⟨budget.size, depth⟩)
    (hle : budget.depth ≤ depth) (rest : List Description) :
    pruneAll depth budget (child :: rest) =
      ⟨(prune ⟨budget.size, depth⟩ child).description :: (pruneAll depth budget rest).children,
        (pruneAll depth budget rest).left,
        (prune ⟨budget.size, depth⟩ child).dropped ++ (pruneAll depth budget rest).dropped⟩ := by
  have hbehind : Budget.mk (prune ⟨budget.size, depth⟩ child).left.size
      (min budget.depth (prune ⟨budget.size, depth⟩ child).left.depth) = budget := by
    rw [hleft, Nat.min_eq_left hle]
  rw [pruneAll, hbehind]

/-- Children that have cost nothing leave the budget as it was. -/
theorem left_pruneAll_of_sizeAll_eq_zero {children : List Description}
    (hchildren : ∀ child ∈ children, ∀ budget, (prune budget child).description.size = 0 →
      (prune budget child).left = budget)
    (depth : Nat) (budget : Budget) (hle : budget.depth ≤ depth)
    (hzero : sizeAll (pruneAll depth budget children).children = 0) :
    (pruneAll depth budget children).left = budget := by
  induction children with
  | nil => rfl
  | cons child rest ih =>
    have hfirst : (prune ⟨budget.size, depth⟩ child).description.size = 0 := by
      rw [pruneAll, sizeAll] at hzero
      exact Nat.eq_zero_of_add_eq_zero_right hzero
    have hleft := hchildren child List.mem_cons_self ⟨budget.size, depth⟩ hfirst
    rw [pruneAll_cons_of_left_eq hleft hle] at hzero ⊢
    rw [sizeAll] at hzero
    exact ih (fun c hc => hchildren c (List.mem_cons_of_mem child hc))
      (Nat.eq_zero_of_add_eq_zero_left hzero)

/-- Whichever way out a container takes, it costs nothing only if the children
it was put together of do not. -/
theorem sizeAll_eq_zero_of_pruneContainer {rebuilt : Description} (hkind : IsContainer rebuilt)
    (d : Description) (budget : Budget) (pruned : PrunedChildren) :
    (pruneContainer d rebuilt budget pruned).description.size = 0 →
      sizeAll rebuilt.children = 0 := by
  refine pruneContainer_induct (P := fun x => x.size = 0 → sizeAll rebuilt.children = 0)
    (fun hnil _ _ => ?_) (fun child hsingle hzero => ?_) (fun _ hzero => ?_)
    (fun x requests hx hzero => ?_) d budget pruned
  · rw [hnil, sizeAll]
  · rw [hsingle, sizeAll, sizeAll, hzero]
  · rwa [hkind.size_eq] at hzero
  · exact hx (by rwa [size_withPrints] at hzero)

/-- Children that leave the budget as it was do so for their container. -/
theorem left_pruneContainer {budget : Budget} {pruned : PrunedChildren}
    (h : pruned.left = budget) (d rebuilt : Description) :
    (pruneContainer d rebuilt budget pruned).left = budget := by
  unfold pruneContainer
  split
  · rw [h]
    rfl
  · exact h
  · exact h

/-- A tree without alternatives that costs nothing after pruning has cost
nothing. -/
theorem left_prune_of_size_eq_zero (hd : d.WellFormed) (hnone : ¬ d.OffersAlternatives)
    (budget : Budget) (hzero : (prune budget d).description.size = 0) :
    (prune budget d).left = budget := by
  induction d using prune_induct generalizing budget with
  | thing ps => rfl
  | elementary d hkind =>
    rw [prune_elementary hkind, keepOrDrop] at hzero ⊢
    split at hzero
    · -- it was kept, and costs one
      rw [hkind.size_eq] at hzero
      cases hzero
    · next hsize =>
      rw [if_neg hsize]
      rfl
  | categories pages hierarchy ps =>
    cases hd with
    | categories _ _ hpages =>
      have hlength := List.length_pos_iff.2 hpages
      rw [prune, pruneCategories] at hzero ⊢
      dsimp only at hzero ⊢
      split at hzero
      · rw [size] at hzero
        split at hzero <;> omega
      · next hsize =>
        rw [if_neg hsize]
        split at hzero
        · next hempty =>
          rw [if_pos hempty]
          rfl
        · simp only [size, List.length_take] at hzero
          split at hzero <;> omega
  | someProperty property inner ps ih =>
    rw [prune] at hzero ⊢
    split at hzero
    · next hfits =>
      rw [if_pos hfits]
      rfl
    · rw [size] at hzero
      omega
  | container d hkind ih =>
    rw [prune_container hkind] at hzero ⊢
    split at hzero
    · next hempty =>
      rw [if_pos hempty]
    · next hempty =>
      rw [if_neg hempty]
      split at hzero
      · next hsize =>
        rw [if_pos hsize]
        rfl
      · next hsize =>
        have hne : d.children ≠ [] := by simpa using hempty
        obtain ⟨children, ps, rfl, hchildren⟩ := hkind.eq_conjunction hne hnone
        have hsum := sizeAll_eq_zero_of_pruneContainer (hkind.isContainer_rebuild _) _ budget _
          hzero
        rw [rebuild, sizeAll_children_allOf] at hsum
        rw [if_neg hsize]
        refine left_pruneContainer (left_pruneAll_of_sizeAll_eq_zero (fun child hchild => ?_)
          budget.depth budget (Nat.le_refl _) hsum) _ _
        exact ih child hchild (hd.of_mem_children hchild) (hchildren child hchild)

-- ============================================================ what is spent

theorem size_le_left_pruneAll {children : List Description}
    (hchildren : ∀ child ∈ children, ∀ budget : Budget,
      budget.size ≤ (prune budget child).left.size + child.size)
    (depth : Nat) (budget : Budget) :
    budget.size ≤ (pruneAll depth budget children).left.size + sizeAll children := by
  induction children generalizing budget with
  | nil => exact Nat.le_refl _
  | cons child rest ih =>
    have hfirst := hchildren child List.mem_cons_self ⟨budget.size, depth⟩
    have hrest := ih (fun c hc => hchildren c (List.mem_cons_of_mem child hc))
      ⟨(prune ⟨budget.size, depth⟩ child).left.size,
        min budget.depth (prune ⟨budget.size, depth⟩ child).left.depth⟩
    rw [pruneAll, sizeAll]
    dsimp only at hfirst hrest ⊢
    omega

/-- Pruning spends no more on a tree than the tree would have cost. -/
theorem size_le_left_prune (d : Description) (budget : Budget) :
    budget.size ≤ (prune budget d).left.size + d.size := by
  induction d using prune_induct generalizing budget with
  | thing ps => exact Nat.le_refl _
  | elementary d hkind =>
    rw [prune_elementary hkind, keepOrDrop]
    split
    · dsimp only
      omega
    · exact Nat.le_add_right _ _
  | categories pages hierarchy ps =>
    rw [prune, pruneCategories]
    dsimp only
    split
    · dsimp only
      omega
    · split
      · exact Nat.le_add_right _ _
      · dsimp only
        omega
  | someProperty property inner ps ih =>
    rw [prune]
    split
    · exact Nat.le_add_right _ _
    · have hinner := ih ⟨budget.size - 1, budget.depth - 1⟩
      rw [size]
      dsimp only at hinner ⊢
      omega
  | container d hkind ih =>
    rw [prune_container hkind]
    split
    · exact Nat.le_add_right _ _
    · split
      · exact Nat.le_add_right _ _
      · have hall := size_le_left_pruneAll ih budget.depth budget
        dsimp only
        rwa [size_left_pruneContainer, hkind.size_eq]

/-- A container of which nothing is left has taken the first way out: neither
one of its children nor itself is an empty condition. -/
theorem pruneContainer_of_isThing {rebuilt : Description} (hkind : IsContainer rebuilt)
    (hrebuilt : rebuilt.WellFormed) {budget : Budget} {pruned : PrunedChildren}
    (hthing : (pruneContainer d rebuilt budget pruned).description.isThing = true) :
    pruneContainer d rebuilt budget pruned = d.drop ⟨pruned.left.size, budget.depth⟩ := by
  obtain ⟨-, heq⟩ | ⟨child, hsingle, heq⟩ | ⟨-, heq⟩ :=
    pruneContainer_cases d rebuilt budget pruned
  · exact heq
  · have hchild := hrebuilt.isThing_eq_false (hsingle ▸ List.mem_singleton_self child)
    rw [heq, isThing_withPrints, hchild] at hthing
    cases hthing
  · rw [heq, isThing_withPrints] at hthing
    cases rebuilt with
    | thing => cases hkind
    | _ => cases hthing

/-- A condition that is dropped hands back all of the depth. -/
theorem depth_left_of_isThing (hd : d.WellFormed) {budget : Budget}
    (hthing : (prune budget d).description.isThing = true) :
    (prune budget d).left.depth = budget.depth := by
  induction d using prune_induct generalizing budget with
  | thing ps => rfl
  | elementary d hkind =>
    rw [prune_elementary hkind, keepOrDrop]
    split <;> rfl
  | categories pages hierarchy ps =>
    rw [prune, pruneCategories]
    dsimp only
    split
    · rfl
    · split <;> rfl
  | someProperty property inner ps =>
    rw [prune] at hthing ⊢
    split at hthing
    · next hfits =>
      rw [if_pos hfits]
      rfl
    · cases hthing
  | container d hkind =>
    have hwellFormed := forall_pruneAll
      (fun child hchild => wellFormed_prune (hd.of_mem_children hchild)) budget.depth budget
    rw [prune_container hkind] at hthing ⊢
    split
    · rfl
    · next hne =>
      rw [if_neg hne] at hthing
      split
      · rfl
      · next hsize =>
        rw [if_neg hsize] at hthing
        dsimp only at hthing ⊢
        rw [pruneContainer_of_isThing (hkind.isContainer_rebuild _)
          (hkind.wellFormed_rebuild hwellFormed) hthing]
        rfl

-- ======================================================= dropped conditions

theorem size_eq_zero_of_isThing (h : d.isThing = true) : d.size = 0 := by
  cases d with
  | thing => rfl
  | _ => cases h

/-- **What dropping a condition costs.** A condition of which nothing is left
has not cost any depth, and no more size than it has itself. If it offers no
alternatives outside of property conditions, it has cost nothing at all, and its
later siblings become what they would have become without it. -/
theorem left_of_prune_isThing (hd : d.WellFormed) {budget : Budget}
    (hthing : (prune budget d).description.isThing = true) :
    (prune budget d).left.depth = budget.depth ∧
      (prune budget d).left.size ≤ budget.size ∧
      budget.size ≤ (prune budget d).left.size + d.size ∧
      (¬ d.OffersAlternatives →
        (prune budget d).left = budget ∧
          ∀ siblings : List Description,
            let alone := pruneAll budget.depth budget siblings
            pruneAll budget.depth budget (d :: siblings) =
              ⟨(prune budget d).description :: alone.children, alone.left,
                (prune budget d).dropped ++ alone.dropped⟩) := by
  have hpaid := (prune_paidFrom d budget).size
  refine ⟨depth_left_of_isThing hd hthing, Nat.le_trans (Nat.le_add_left _ _) hpaid,
    size_le_left_prune d budget, fun hnone => ?_⟩
  have hleft := left_prune_of_size_eq_zero hd hnone budget (size_eq_zero_of_isThing hthing)
  exact ⟨hleft, fun siblings => pruneAll_cons_of_left_eq hleft (Nat.le_refl _) siblings⟩

/-- Two property conditions that are too deep are dropped, both of them, and
the concept behind them is kept at a budget of one. -/
theorem left_of_prune_isThing_conjunction :
    let property : Property := ⟨"Located in".toList, false⟩
    let asia := value (.page (Page.main "Asia".toList)) (some property) .equal []
    let either := someProperty property (disjunction [asia, asia] none false []) []
    let d := conjunction [someProperty property asia [], either] []
    let old := concept (Page.concept "Old".toList) []
    ((d.WellFormed ∧ (prune ⟨1, 0⟩ d).description.isThing = true) ∧ ¬ d.OffersAlternatives) ∧
      (prune ⟨1, 0⟩ d).left = ⟨1, 0⟩ ∧
      pruneAll 0 ⟨1, 0⟩ [d, old] = ⟨[.thing [], old], ⟨0, 0⟩, [d.write]⟩ := by
  intro property asia either d old
  have hasia : asia.WellFormed := .value _ _ _ _
  have hor : (anyOf [asia, asia]).WellFormed :=
    wellFormed_anyOf (List.forall_mem_cons.2 ⟨hasia, List.forall_mem_singleton.2 hasia⟩)
  have heither : either.WellFormed := .someProperty _ _ hor
  have hd : d.WellFormed := by
    show (allOf [someProperty property asia [], either]).WellFormed
    exact wellFormed_allOf
      (List.forall_mem_cons.2 ⟨.someProperty _ _ hasia, List.forall_mem_singleton.2 heither⟩)
  have hproperty (inner : Description) : ¬ (someProperty property inner []).OffersAlternatives :=
    fun h => nomatch h
  have hnone : ¬ d.OffersAlternatives := by
    intro hoffers
    obtain ⟨child, hchild, hoffers⟩ := offersAlternatives_conjunction.1 hoffers
    rcases List.mem_cons.1 hchild with rfl | hchild
    · exact hproperty asia hoffers
    · rw [List.mem_singleton.1 hchild] at hoffers
      exact hproperty _ hoffers
  have hthing : (prune ⟨1, 0⟩ d).description.isThing = true := rfl
  obtain ⟨-, -, -, hleft⟩ := left_of_prune_isThing hd hthing
  obtain ⟨hbudget, hsiblings⟩ := hleft hnone
  exact ⟨⟨⟨hd, hthing⟩, hnone⟩, hbudget, hsiblings [old]⟩

/-- A disjunction keeps its first alternative, becomes true with the second,
which is too deep, and is dropped; the size of the first is gone. The concept
is dropped behind it, and kept in front of it. -/
theorem collapse_costs_size :
    let property : Property := ⟨"Located in".toList, false⟩
    let asia := value (.page (Page.main "Asia".toList)) (some property) .equal []
    let help := inNamespace 12 "Help".toList []
    let d := disjunction [help, someProperty property asia []] none false []
    let old := concept (Page.concept "Old".toList) []
    (d.WellFormed ∧ (prune ⟨1, 0⟩ d).description = .thing []) ∧
      (prune ⟨1, 0⟩ d).left = ⟨0, 0⟩ ∧ (prune ⟨1, 0⟩ d).left ≠ ⟨1, 0⟩ ∧
      (prune ⟨1, 0⟩ (conjunction [d, old] [])).dropped = [(conjunction [d, old] []).write] ∧
      (prune ⟨1, 0⟩ (conjunction [old, d] [])).description = old := by
  intro property asia help d old
  have hd : d.WellFormed := by
    show (anyOf [help, someProperty property asia []]).WellFormed
    exact wellFormed_anyOf (List.forall_mem_cons.2 ⟨.inNamespace _ _ _,
      List.forall_mem_singleton.2 (.someProperty _ _ (.value _ _ _ _))⟩)
  exact ⟨⟨hd, rfl⟩, rfl, by decide, rfl, rfl⟩

end Description

end InlineQuery
