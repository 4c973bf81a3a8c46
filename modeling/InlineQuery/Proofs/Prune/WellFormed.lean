/-
Pruning makes well-formed trees of well-formed trees.

Containers are built anew from whatever their children have become, and
building makes them well-formed. A category list is cut only where something
is left of it.
-/
import InlineQuery.Proofs.Description.WellFormed
import InlineQuery.Proofs.Prune.Steps

namespace InlineQuery

namespace Description

variable {d : Description}

-- ============================================================== containers

theorem IsContainer.wellFormed_rebuild (h : IsContainer d) {children : List Description}
    (hchildren : ∀ child ∈ children, child.WellFormed) : (d.rebuild children).WellFormed := by
  obtain heq | heq := h.rebuild_cases children
  · rw [heq]
    exact wellFormed_allOf hchildren
  · rw [heq]
    exact wellFormed_anyOf hchildren

/-- The children of a container make it again, its print requests apart. -/
theorem IsContainer.rebuild_children (h : IsContainer d) (hd : d.WellFormed)
    (hne : d.children ≠ []) : d.rebuild d.children = d.withPrints [] := by
  cases d with
  | conjunction => exact allOf_children hd
  | disjunction => exact anyOf_children hd hne
  | _ => cases h

/-- Whatever the children were put together to, the result is one of them,
the whole or nothing. -/
theorem wellFormed_pruneContainer (d : Description) {rebuilt : Description}
    (h : rebuilt.WellFormed) (budget : Budget) (pruned : PrunedChildren) :
    (pruneContainer d rebuilt budget pruned).description.WellFormed := by
  refine pruneContainer_induct (fun _ ps => .thing ps) (fun child hsingle => ?_) (fun _ => h)
    (fun _ requests hx => wellFormed_withPrints requests hx) d budget pruned
  exact h.of_mem_children (hsingle ▸ List.mem_singleton_self child)

-- ================================================================= pruning

theorem wellFormed_pruneCategories {pages : List Page} (hpages : pages ≠ []) (hierarchy : Bool)
    (prints : List PrintRequest) (budget : Budget) :
    (pruneCategories pages hierarchy prints budget).description.WellFormed := by
  unfold pruneCategories
  dsimp only
  split
  · exact .categories hierarchy prints hpages
  · split
    · exact .thing prints
    · next hzero =>
      refine .categories hierarchy prints ?_
      simp [List.take_eq_nil_iff, hzero, hpages]

theorem wellFormed_prune (hd : d.WellFormed) (budget : Budget) :
    (prune budget d).description.WellFormed := by
  induction d using prune_induct generalizing budget with
  | thing ps => exact hd
  | elementary d hkind =>
    rw [prune_elementary hkind, keepOrDrop]
    split
    · exact hd
    · exact .thing d.prints
  | categories pages hierarchy ps =>
    cases hd with
    | categories _ _ hpages => exact wellFormed_pruneCategories hpages hierarchy ps budget
  | someProperty property inner ps ih =>
    cases hd with
    | someProperty _ _ hinner =>
      rw [prune]
      split
      · exact .thing ps
      · exact .someProperty property ps (ih hinner _)
  | container d hkind ih =>
    have hpruned := forall_pruneAll
      (fun child hchild => ih child hchild (hd.of_mem_children hchild)) budget.depth budget
    rw [prune_container hkind]
    split
    · exact hd
    · split
      · exact .thing d.prints
      · exact wellFormed_pruneContainer d (hkind.wellFormed_rebuild hpruned) budget _

end Description

end InlineQuery
