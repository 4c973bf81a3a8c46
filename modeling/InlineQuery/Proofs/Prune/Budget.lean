/-
What pruning keeps and what it leaves of the budget are paid for out of the
budget it was given.

# The invariant

`Pruned.PaidFrom` is the whole argument: kept size plus size left is at most
the size given, and the same for depth. Size is one counter that runs
through the children of a container, so their costs add up; depth is handed
to every child anew, and only the smallest depth left survives, so their
costs are joined by the maximum. `PrunedChildren.PaidFrom` says this of a
list of children, and `pruneAll_paidFrom` is its induction.

Putting the children together again cannot raise the price: a container
built by `allOf` or `anyOf` drops, absorbs and merges, and costs at most what
the list cost (`allOf_costsAtMost`, `anyOf_costsAtMost`).

# Differences that could be negative

`Nat` subtraction stops at zero, which would hide a budget that is
overdrawn. `prune?` therefore repeats the walk with differences that fail
below zero, and with a split of a category list that fails behind its end;
`prune?_eq_some` shows that it never fails and agrees with `prune`.
-/
import InlineQuery.Proofs.Prune.Steps
import InlineQuery.Query

namespace InlineQuery

namespace Description

-- =============================================== the price of several trees

/-- A container costs what its children cost; no other node has any. -/
theorem sizeAll_children_le (d : Description) : sizeAll d.children ≤ d.size := by
  cases d <;> simp [children, size, sizeAll]

theorem depthAll_children_le (d : Description) : depthAll d.children ≤ d.depth := by
  cases d <;> simp [children, depth, depthAll]

/-- Replacing a child changes the sum by the difference of the two. -/
theorem sizeAll_set {children : List Description} {i : Nat} {old : Description}
    (h : children[i]? = some old) (new : Description) :
    sizeAll (children.set i new) + old.size = sizeAll children + new.size := by
  induction children generalizing i with
  | nil => simp at h
  | cons child rest ih =>
    cases i with
    | zero =>
      simp only [List.getElem?_cons_zero, Option.some.injEq] at h
      subst h
      simp only [List.set_cons_zero, sizeAll]
      omega
    | succ i =>
      have := ih (by simpa using h)
      simp only [List.set_cons_succ, sizeAll]
      omega

theorem depthAll_set_le (children : List Description) (i : Nat) (new : Description) :
    depthAll (children.set i new) ≤ max (depthAll children) new.depth := by
  induction children generalizing i with
  | nil => simp [depthAll]
  | cons child rest ih =>
    cases i with
    | zero =>
      simp only [List.set_cons_zero, depthAll]
      omega
    | succ i =>
      have := ih i
      simp only [List.set_cons_succ, depthAll]
      omega

end Description

-- =============================================== building costs no more

/-- Inserting one tree after the other adds up their prices. -/
theorem Description.foldl_insert_le {α : Type} {insert : α → Description → α}
    {f : α → List Description} (children : List Description)
    (h : ∀ d ∈ children, ∀ a, sizeAll (f (insert a d)) ≤ sizeAll (f a) + d.size ∧
      depthAll (f (insert a d)) ≤ max (depthAll (f a)) d.depth) (a : α) :
    sizeAll (f (children.foldl insert a)) ≤ sizeAll (f a) + sizeAll children ∧
      depthAll (f (children.foldl insert a)) ≤ max (depthAll (f a)) (depthAll children) := by
  induction children generalizing a with
  | nil => exact ⟨Nat.le_add_right _ _, Nat.le_max_left _ _⟩
  | cons child rest ih =>
    have hfirst := h child List.mem_cons_self a
    have hrest := ih (fun d hd => h d (List.mem_cons_of_mem child hd)) (insert a child)
    simp only [List.foldl_cons, sizeAll, depthAll]
    omega

namespace Conjuncts

open Description

theorem sizeAll_insert (c : Conjuncts) (d : Description) :
    sizeAll (c.insert d).children = sizeAll c.children + d.size := by
  cases d <;> simp [insert, size, sizeAll, withPrints]

theorem depthAll_insert (c : Conjuncts) (d : Description) :
    depthAll (c.insert d).children = max (depthAll c.children) d.depth := by
  cases d <;> simp [insert, depth, depthAll, withPrints]

end Conjuncts

namespace Disjuncts

open Description

/-- Two category lists merged cost no more than both. -/
theorem sizeAll_insertCategories_le (d : Disjuncts) (pages : List Page) (hierarchy : Bool) :
    sizeAll (d.insertCategories pages hierarchy).children ≤
      sizeAll d.children + size (.categories pages hierarchy []) := by
  obtain ⟨i, old, oldHierarchy, ps, -, hold, heq⟩ | heq := d.insertCategories_cases pages hierarchy
  · rw [heq]
    have hset := sizeAll_set hold (.categories (old ++ pages) (oldHierarchy || hierarchy) ps)
    simp only [size, List.length_append] at hset ⊢
    cases oldHierarchy <;> cases hierarchy <;> simp at hset ⊢ <;> omega
  · rw [heq]
    simp [size, sizeAll]

theorem depthAll_insertCategories_le (d : Disjuncts) (pages : List Page) (hierarchy : Bool) :
    depthAll (d.insertCategories pages hierarchy).children ≤ depthAll d.children := by
  obtain ⟨i, old, oldHierarchy, ps, -, -, heq⟩ | heq := d.insertCategories_cases pages hierarchy
  · rw [heq]
    have := depthAll_set_le d.children i (.categories (old ++ pages) (oldHierarchy || hierarchy) ps)
    simpa [depth] using this
  · rw [heq]
    simp [depth, depthAll]

/-- What inserting a tree adds to the price, and to the depth, of the
disjuncts: at most the tree's own. -/
theorem insert_le (child : Description) (d : Disjuncts) :
    sizeAll (d.insert child).children ≤ sizeAll d.children + child.size ∧
      depthAll (d.insert child).children ≤ max (depthAll d.children) child.depth := by
  induction child using Description.induct generalizing d with
  | thing ps =>
    simp only [insert]
    split
    · exact ⟨Nat.le_add_right _ _, Nat.le_max_left _ _⟩
    · simp [makeTrue, sizeAll, depthAll]
  | categories pages hierarchy ps =>
    simp only [insert]
    split
    · exact ⟨Nat.le_add_right _ _, Nat.le_max_left _ _⟩
    · have hsize := (d.addPrints ps).sizeAll_insertCategories_le pages hierarchy
      have hdepth := (d.addPrints ps).depthAll_insertCategories_le pages hierarchy
      exact ⟨hsize, Nat.le_trans hdepth (Nat.le_max_left _ _)⟩
  | disjunction inner categoryIndex always ps ih =>
    simp only [insert]
    split
    · exact ⟨Nat.le_add_right _ _, Nat.le_max_left _ _⟩
    · split
      · simp [makeTrue, sizeAll, depthAll]
      · -- absorbed child by child, each of which pays for itself
        rw [insertAll_eq_foldl]
        exact foldl_insert_le (f := children) inner ih (d.addPrints ps)
  | _ =>
    simp only [insert]
    split
    · exact ⟨Nat.le_add_right _ _, Nat.le_max_left _ _⟩
    · simp [addPrints, push, size, sizeAll, depth, depthAll, withPrints]

end Disjuncts

namespace Description

/-- The tree costs at most what the trees of the list cost together. -/
def CostsAtMost (d : Description) (children : List Description) : Prop :=
  d.size ≤ sizeAll children ∧ d.depth ≤ depthAll children

theorem allOf_costsAtMost (children : List Description) :
    (allOf children).CostsAtMost children := by
  have h := foldl_insert_le (f := Conjuncts.children) children
    (fun d _ c => ⟨Nat.le_of_eq (c.sizeAll_insert d), Nat.le_of_eq (c.depthAll_insert d)⟩)
    Conjuncts.empty
  simpa [CostsAtMost, allOf, Conjuncts.toDescription, Conjuncts.empty, size, depth, sizeAll,
    depthAll] using h

theorem anyOf_costsAtMost (children : List Description) :
    (anyOf children).CostsAtMost children := by
  have h := foldl_insert_le (f := Disjuncts.children) children
    (fun child _ d => d.insert_le child) Disjuncts.empty
  simpa [CostsAtMost, anyOf, Disjuncts.toDescription, Disjuncts.empty, size, depth, sizeAll,
    depthAll] using h

theorem IsContainer.rebuild_costsAtMost {d : Description} (h : IsContainer d)
    (children : List Description) : (d.rebuild children).CostsAtMost children := by
  obtain heq | heq := h.rebuild_cases children
  · rw [heq]
    exact allOf_costsAtMost children
  · rw [heq]
    exact anyOf_costsAtMost children

end Description

-- ============================================================ the invariant

/-- What is kept and what is left are paid for out of the budget. -/
structure Pruned.PaidFrom (p : Pruned) (budget : Budget) : Prop where
  size : p.description.size + p.left.size ≤ budget.size
  depth : p.description.depth + p.left.depth ≤ budget.depth

/-- The same of several children that were each given `depth`: they share
the size of the budget, and none of them raises the depth that is left. -/
structure PrunedChildren.PaidFrom (p : PrunedChildren) (depth : Nat) (budget : Budget) :
    Prop where
  size : Description.sizeAll p.children + p.left.size ≤ budget.size
  depth : Description.depthAll p.children + p.left.depth ≤ depth
  left : p.left.depth ≤ budget.depth

namespace Description

theorem drop_paidFrom (d : Description) {left budget : Budget} (hsize : left.size ≤ budget.size)
    (hdepth : left.depth ≤ budget.depth) : (d.drop left).PaidFrom budget := by
  constructor <;> simpa [drop, size, depth]

theorem keepOrDrop_paidFrom {d : Description} (hdepth : d.depth = 0) (budget : Budget) :
    (d.keepOrDrop budget).PaidFrom budget := by
  unfold keepOrDrop
  split
  · constructor
    · dsimp only
      omega
    · dsimp only
      omega
  · exact drop_paidFrom d (Nat.le_refl _) (Nat.le_refl _)

theorem pruneCategories_paidFrom (pages : List Page) (hierarchy : Bool)
    (prints : List PrintRequest) (budget : Budget) :
    (pruneCategories pages hierarchy prints budget).PaidFrom budget := by
  unfold pruneCategories
  dsimp only
  split
  · constructor
    · dsimp only
      omega
    · simp [depth]
  · split
    · exact drop_paidFrom _ (Nat.le_refl _) (Nat.le_refl _)
    · constructor
      · simp only [size, List.length_take]
        split <;> omega
      · simp [depth]

/-- A container that is put together again from children that were paid for
is itself paid for, whichever of the three ways out it takes. -/
theorem pruneContainer_paidFrom {d rebuilt : Description} {budget : Budget}
    {pruned : PrunedChildren} (hpaid : pruned.PaidFrom budget.depth budget)
    (hcost : rebuilt.CostsAtMost pruned.children) :
    (pruneContainer d rebuilt budget pruned).PaidFrom budget := by
  obtain ⟨hsize, hdepth⟩ := hcost
  have hpsize := hpaid.size
  have hpdepth := hpaid.depth
  unfold pruneContainer
  split
  · exact drop_paidFrom d (by dsimp only; omega) (Nat.le_refl _)
  · next child hchild =>
    have h₁ := sizeAll_children_le rebuilt
    have h₂ := depthAll_children_le rebuilt
    rw [hchild] at h₁ h₂
    simp only [sizeAll, depthAll] at h₁ h₂
    constructor
    · simp only [size_withPrints]
      omega
    · simp only [depth_withPrints]
      omega
  · constructor
    · simp only [size_withPrints]
      omega
    · simp only [depth_withPrints]
      omega

/-- The children of a container, one after the other: the size left by one
is the budget of the next, and the depth left is the least so far. -/
theorem pruneAll_paidFrom {children : List Description}
    (hchildren : ∀ child ∈ children, ∀ budget, (prune budget child).PaidFrom budget)
    (depth : Nat) (budget : Budget) (hle : budget.depth ≤ depth) :
    (pruneAll depth budget children).PaidFrom depth budget := by
  induction children generalizing budget with
  | nil =>
    constructor
    · simp [pruneAll, sizeAll]
    · simpa [pruneAll, depthAll] using hle
    · exact Nat.le_refl _
  | cons child rest ih =>
    have hfirst := hchildren child List.mem_cons_self ⟨budget.size, depth⟩
    have hrest := ih (fun c hc => hchildren c (List.mem_cons_of_mem child hc))
      ⟨(prune ⟨budget.size, depth⟩ child).left.size,
        min budget.depth (prune ⟨budget.size, depth⟩ child).left.depth⟩
      (Nat.le_trans (Nat.min_le_left _ _) hle)
    obtain ⟨hfsize, hfdepth⟩ := hfirst
    obtain ⟨hrsize, hrdepth, hrleft⟩ := hrest
    constructor
    · simp only [pruneAll, sizeAll] at hfsize hrsize ⊢
      omega
    · simp only [pruneAll, depthAll] at hfdepth hrdepth hrleft ⊢
      omega
    · simp only [pruneAll] at hrleft ⊢
      omega

theorem prune_paidFrom (d : Description) (budget : Budget) :
    (prune budget d).PaidFrom budget := by
  induction d using prune_induct generalizing budget with
  | thing ps => constructor <;> simp [prune, size, depth]
  | elementary d hkind =>
    rw [prune_elementary hkind]
    exact keepOrDrop_paidFrom hkind.depth_eq budget
  | categories pages hierarchy ps => exact pruneCategories_paidFrom pages hierarchy ps budget
  | someProperty property inner ps ih =>
    rw [prune]
    split
    · exact drop_paidFrom _ (Nat.le_refl _) (Nat.le_refl _)
    · obtain ⟨hsize, hdepth⟩ := ih ⟨budget.size - 1, budget.depth - 1⟩
      constructor
      · simp only [size] at hsize ⊢
        omega
      · simp only [depth] at hdepth ⊢
        omega
  | container d hkind ih =>
    rw [prune_container hkind]
    split
    · next hempty =>
      have hsize := hkind.size_eq
      have hdepth := hkind.depth_eq
      rw [List.isEmpty_iff.1 hempty] at hsize hdepth
      constructor <;> simp [hsize, hdepth, sizeAll, depthAll]
    · split
      · exact drop_paidFrom d (Nat.le_refl _) (Nat.le_refl _)
      · exact pruneContainer_paidFrom (pruneAll_paidFrom ih budget.depth budget (Nat.le_refl _))
          (hkind.rebuild_costsAtMost _)

end Description

-- =================================================== checked differences

/-- The budget less a price; none if it does not cover the price. -/
def Budget.minus? (budget price : Budget) : Option Budget :=
  if price.size ≤ budget.size ∧ price.depth ≤ budget.depth then
    some ⟨budget.size - price.size, budget.depth - price.depth⟩
  else none

namespace Description

/-- `keepOrDrop` with a checked difference in both parts of the budget. -/
def keepOrDrop? (d : Description) (budget : Budget) : Option Pruned :=
  if budget.size < d.size ∨ budget.depth < d.depth then some (d.drop budget)
  else (budget.minus? (.of d)).map fun left => ⟨d, left, []⟩

/-- `pruneCategories` with a checked difference, and with a check that the
list is not cut behind its end. -/
def pruneCategories? (pages : List Page) (hierarchy : Bool) (prints : List PrintRequest)
    (budget : Budget) : Option Pruned :=
  let d := Description.categories pages hierarchy prints
  if d.size ≤ budget.size then (budget.minus? ⟨d.size, 0⟩).map fun left => ⟨d, left, []⟩
  else if budget.size = 0 then some (d.drop budget)
  else if budget.size ≤ pages.length then
    let rest := Description.categories (pages.drop budget.size) hierarchy []
    some ⟨.categories (pages.take budget.size) hierarchy prints, ⟨0, budget.depth⟩, [rest.write]⟩
  else none

mutual

/-- The tree cut down to a budget; none if a budget were overdrawn. -/
def prune? (budget : Budget) : Description → Option Pruned
  | .thing ps => some ⟨.thing ps, budget, []⟩
  | .value item property comparator ps =>
    keepOrDrop? (.value item property comparator ps) budget
  | .categories pages hierarchy ps => pruneCategories? pages hierarchy ps budget
  | .inNamespace id label ps => keepOrDrop? (.inNamespace id label ps) budget
  | .concept page ps => keepOrDrop? (.concept page ps) budget
  | .someProperty property inner ps =>
    if budget.size = 0 ∨ budget.depth = 0 then
      some (drop (.someProperty property inner ps) budget)
    else
      (budget.minus? ⟨1, 1⟩).bind fun innerBudget =>
        (prune? innerBudget inner).map fun pruned =>
          ⟨.someProperty property pruned.description ps, pruned.left, pruned.dropped⟩
  | .conjunction children ps =>
    let d := Description.conjunction children ps
    if children.isEmpty then some ⟨d, budget, []⟩
    else if budget.size = 0 then some (d.drop budget)
    else (pruneAll? budget.depth budget children).map fun pruned =>
      pruneContainer d (allOf pruned.children) budget pruned
  | .disjunction children categoryIndex always ps =>
    let d := Description.disjunction children categoryIndex always ps
    if children.isEmpty then some ⟨d, budget, []⟩
    else if budget.size = 0 then some (d.drop budget)
    else (pruneAll? budget.depth budget children).map fun pruned =>
      pruneContainer d (anyOf pruned.children) budget pruned

/-- The children of a container; none if a budget were overdrawn. -/
def pruneAll? (depth : Nat) (budget : Budget) : List Description → Option PrunedChildren
  | [] => some ⟨[], budget, []⟩
  | child :: rest =>
    (prune? ⟨budget.size, depth⟩ child).bind fun first =>
      (pruneAll? depth ⟨first.left.size, min budget.depth first.left.depth⟩ rest).map
        fun others =>
          ⟨first.description :: others.children, others.left, first.dropped ++ others.dropped⟩

end

theorem keepOrDrop?_eq_some {d : Description} (hdepth : d.depth = 0) (budget : Budget) :
    keepOrDrop? d budget = some (d.keepOrDrop budget) := by
  unfold keepOrDrop? keepOrDrop
  by_cases hsize : d.size ≤ budget.size
  · have hfits : ¬ (budget.size < d.size ∨ budget.depth < d.depth) := by omega
    rw [if_neg hfits, if_pos hsize]
    simp [Budget.minus?, Budget.of, hsize, hdepth]
  · rw [if_pos (Or.inl (by omega)), if_neg hsize]

theorem pruneCategories?_eq_some (pages : List Page) (hierarchy : Bool)
    (prints : List PrintRequest) (budget : Budget) :
    pruneCategories? pages hierarchy prints budget =
      some (pruneCategories pages hierarchy prints budget) := by
  unfold pruneCategories? pruneCategories
  by_cases hsize : (categories pages hierarchy prints).size ≤ budget.size
  · simp [Budget.minus?, hsize]
  · dsimp only
    rw [if_neg hsize, if_neg hsize]
    by_cases hzero : budget.size = 0
    · rw [if_pos hzero, if_pos hzero]
    · -- too large for a budget that is not zero: the list costs its length
      have hlength : budget.size ≤ pages.length := by
        simp only [size] at hsize
        split at hsize <;> omega
      rw [if_neg hzero, if_neg hzero, if_pos hlength]

theorem pruneAll?_eq_some {children : List Description}
    (hchildren : ∀ child ∈ children, ∀ budget, prune? budget child = some (prune budget child))
    (depth : Nat) (budget : Budget) :
    pruneAll? depth budget children = some (pruneAll depth budget children) := by
  induction children generalizing budget with
  | nil => rfl
  | cons child rest ih =>
    have hrest := ih (fun c hc => hchildren c (List.mem_cons_of_mem child hc))
    rw [pruneAll?, hchildren child List.mem_cons_self, Option.bind_some, hrest, Option.map_some,
      pruneAll]

/-- No difference taken by `prune` is negative. -/
theorem prune?_eq_some (d : Description) (budget : Budget) :
    prune? budget d = some (prune budget d) := by
  induction d using Description.induct generalizing budget with
  | thing ps => rfl
  | value item property comparator ps => exact keepOrDrop?_eq_some rfl budget
  | categories pages hierarchy ps => exact pruneCategories?_eq_some pages hierarchy ps budget
  | inNamespace id label ps => exact keepOrDrop?_eq_some rfl budget
  | concept page ps => exact keepOrDrop?_eq_some rfl budget
  | someProperty property inner ps ih =>
    rw [prune?, prune]
    by_cases hzero : budget.size = 0 ∨ budget.depth = 0
    · rw [if_pos hzero, if_pos hzero]
    · have hcovered : 1 ≤ budget.size ∧ 1 ≤ budget.depth := by omega
      rw [if_neg hzero, if_neg hzero, Budget.minus?, if_pos hcovered, Option.bind_some, ih,
        Option.map_some]
  | conjunction children ps ih =>
    rw [prune?, prune, pruneAll?_eq_some ih, Option.map_some]
    dsimp only
    split
    · rfl
    · split <;> rfl
  | disjunction children categoryIndex always ps ih =>
    rw [prune?, prune, pruneAll?_eq_some ih, Option.map_some]
    dsimp only
    split
    · rfl
    · split <;> rfl

-- ============================================================== the budget

/-- Pruning respects and conserves the budget: what is kept and what is left
never exceed what was given, no difference is taken below zero on the way,
and a query whose limits were applied keeps to them. -/
theorem prune_conserves_budget (d : Description) (budget : Budget) :
    (prune budget d).description.size + (prune budget d).left.size ≤ budget.size ∧
      (prune budget d).description.depth + (prune budget d).left.depth ≤ budget.depth ∧
      prune? budget d = some (prune budget d) ∧
      ∀ (q : Query) (maxSize maxDepth : Nat),
        (q.applyLimits maxSize maxDepth).size ≤ maxSize ∧
          (q.applyLimits maxSize maxDepth).depth ≤ maxDepth := by
  obtain ⟨hsize, hdepth⟩ := prune_paidFrom d budget
  refine ⟨hsize, hdepth, prune?_eq_some d budget, fun q maxSize maxDepth => ?_⟩
  obtain ⟨hqsize, hqdepth⟩ := prune_paidFrom q.description ⟨maxSize, maxDepth⟩
  exact ⟨Nat.le_trans (Nat.le_add_right _ _) hqsize, Nat.le_trans (Nat.le_add_right _ _) hqdepth⟩

end Description

end InlineQuery
