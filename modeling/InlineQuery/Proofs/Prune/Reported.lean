/-
Pruning reports exactly when it changes something.

# Two cases

A budget covers a tree if it has the size and the depth for all of it. Then
nothing happens (`prune_of_covers`): every container is put together again
from the same children, and these make the same container. Otherwise
something is reported and something is missing (`prune_of_not_covers`); the
latter shows in the size, which a cut makes smaller and nothing makes larger
(`size_prune_le`).

# Branching

Both need what `Branching` asks of the containers. One with a single child is
replaced by it, and one whose children cost nothing is dropped at a budget of
nothing that would cover it: in the one case there is a change without a
report, in the other a report although the budget is large enough.
-/
import InlineQuery.Proofs.Prune.Budget
import InlineQuery.Proofs.Prune.WellFormed

namespace InlineQuery

open Description

-- ================================================================= covering

/-- The budget is large enough for the whole tree. -/
def Budget.Covers (budget : Budget) (d : Description) : Prop :=
  d.size ≤ budget.size ∧ d.depth ≤ budget.depth

/-- What the tree leaves of a budget that covers it. -/
def Budget.after (budget : Budget) (d : Description) : Budget :=
  ⟨budget.size - d.size, budget.depth - d.depth⟩

namespace Description

/-- The node is no container, or an empty one, or it has several children
all of which cost something. -/
def Branches (node : Description) : Prop :=
  node.children = [] ∨ (2 ≤ node.children.length ∧ ∀ child ∈ node.children, 0 < child.size)

/-- Every container in the tree branches. -/
def Branching (d : Description) : Prop := d.Throughout Branches

/-- A container that is not empty costs something. -/
theorem Branching.sizeAll_pos {d : Description} (h : d.Branching) (hne : d.children ≠ []) :
    0 < sizeAll d.children := by
  obtain hnil | ⟨-, hpos⟩ := h d .root
  · exact absurd hnil hne
  · obtain ⟨child, hchild⟩ := List.exists_mem_of_ne_nil _ hne
    have := hpos child hchild
    have := size_le_sizeAll hchild
    omega

-- ====================================================== budgets that suffice

/-- Children that are covered together: each takes its size from what the
elder ones left, and its depth from `depth`. -/
theorem pruneAll_of_covers {children : List Description}
    (hchildren : ∀ child ∈ children, ∀ budget : Budget, budget.Covers child →
      prune budget child = ⟨child, budget.after child, []⟩)
    (depth : Nat) (budget : Budget) (hsize : sizeAll children ≤ budget.size)
    (hdepth : depthAll children ≤ depth) (hle : budget.depth ≤ depth) :
    pruneAll depth budget children =
      ⟨children, ⟨budget.size - sizeAll children, min budget.depth (depth - depthAll children)⟩,
        []⟩ := by
  induction children generalizing budget with
  | nil =>
    rw [depthAll, Nat.sub_zero, Nat.min_eq_left hle]
    rfl
  | cons child rest ih =>
    rw [sizeAll] at hsize ⊢
    rw [depthAll] at hdepth ⊢
    have hcovers : (Budget.mk budget.size depth).Covers child :=
      ⟨by dsimp only; omega, by dsimp only; omega⟩
    have hfirst := hchildren child List.mem_cons_self _ hcovers
    -- what the first child leaves covers the others
    have hrest := ih (fun c hc => hchildren c (List.mem_cons_of_mem child hc))
      ⟨budget.size - child.size, min budget.depth (depth - child.depth)⟩
      (by dsimp only; omega) (by omega) (Nat.le_trans (Nat.min_le_left _ _) hle)
    have hleft : budget.size - child.size - sizeAll rest =
        budget.size - (child.size + sizeAll rest) := by omega
    have hmin : min (min budget.depth (depth - child.depth)) (depth - depthAll rest) =
        min budget.depth (depth - max child.depth (depthAll rest)) := by omega
    rw [pruneAll, hfirst]
    dsimp only [Budget.after]
    rw [hrest, List.nil_append]
    dsimp only
    rw [hleft, hmin]

/-- A container of several children that are all kept is put together
again. -/
theorem pruneContainer_of_kept {d : Description} (hkind : IsContainer d) (hd : d.WellFormed)
    (hlength : 2 ≤ d.children.length) (budget left : Budget) :
    pruneContainer d (d.rebuild d.children) budget ⟨d.children, left, []⟩ = ⟨d, left, []⟩ := by
  have hne : d.children ≠ [] := List.ne_nil_of_length_pos (by omega)
  rw [hkind.rebuild_children hd hne]
  obtain ⟨hnil, -⟩ | ⟨child, hsingle, -⟩ | ⟨-, heq⟩ :=
    pruneContainer_cases d (d.withPrints []) budget ⟨d.children, left, []⟩
  · rw [children_withPrints] at hnil
    exact absurd hnil hne
  · rw [children_withPrints] at hsingle
    rw [hsingle, List.length_singleton] at hlength
    omega
  · rw [heq, withPrints_withPrints, withPrints_prints]

/-- A tree that is covered is left alone. -/
theorem prune_of_covers {d : Description} (hd : d.WellFormed) (hbranching : d.Branching)
    {budget : Budget} (h : budget.Covers d) :
    prune budget d = ⟨d, budget.after d, []⟩ := by
  induction d using prune_induct generalizing budget with
  | thing ps => rfl
  | elementary d hkind =>
    rw [prune_elementary hkind, keepOrDrop, if_pos h.1, Budget.after, hkind.depth_eq, Nat.sub_zero]
  | categories pages hierarchy ps =>
    rw [prune, pruneCategories]
    dsimp only
    rw [if_pos h.1]
    rfl
  | someProperty property inner ps ih =>
    cases hd with
    | someProperty _ _ hinner =>
      obtain ⟨hsize, hdepth⟩ := h
      rw [size] at hsize
      rw [depth] at hdepth
      have hcovers : (Budget.mk (budget.size - 1) (budget.depth - 1)).Covers inner :=
        ⟨by dsimp only; omega, by dsimp only; omega⟩
      have hnonzero : ¬ (budget.size = 0 ∨ budget.depth = 0) := by omega
      rw [prune, if_neg hnonzero, ih hinner (throughout_someProperty.1 hbranching).2 hcovers]
      simp only [Budget.after, size, depth, Nat.sub_add_eq]
  | container d hkind ih =>
    obtain ⟨hsize, hdepth⟩ := h
    rw [hkind.size_eq] at hsize
    rw [hkind.depth_eq] at hdepth
    rw [prune_container hkind, Budget.after, hkind.size_eq, hkind.depth_eq]
    obtain hnil | ⟨hlength, -⟩ := hbranching d .root
    · rw [hnil]
      rfl
    · have hne : d.children ≠ [] := List.ne_nil_of_length_pos (by omega)
      have hpos := hbranching.sizeAll_pos hne
      have hall := pruneAll_of_covers
        (fun child hchild _ hcovers =>
          ih child hchild (hd.of_mem_children hchild) (hbranching.of_mem_children hchild) hcovers)
        budget.depth budget hsize hdepth (Nat.le_refl _)
      have hleft : min budget.depth (budget.depth - depthAll d.children) =
          budget.depth - depthAll d.children := Nat.min_eq_right (Nat.sub_le _ _)
      rw [if_neg (by simpa using hne), if_neg (by omega), hall, hleft]
      exact pruneContainer_of_kept hkind hd hlength budget _

-- ================================================ budgets that do not suffice

theorem size_pruneContainer_le {d rebuilt : Description} {budget : Budget}
    {pruned : PrunedChildren} (hcost : rebuilt.CostsAtMost pruned.children) :
    (pruneContainer d rebuilt budget pruned).description.size ≤ sizeAll pruned.children := by
  refine pruneContainer_induct (P := fun x => x.size ≤ sizeAll pruned.children)
    (fun _ _ => Nat.zero_le _) (fun child hsingle => ?_) (fun _ => hcost.1)
    (fun x requests hx => ?_) d budget pruned
  · have hchild := sizeAll_children_le rebuilt
    rw [hsingle, sizeAll, sizeAll, Nat.add_zero] at hchild
    exact Nat.le_trans hchild hcost.1
  · rwa [size_withPrints]

theorem sizeAll_pruneAll_le {children : List Description}
    (hchildren : ∀ child ∈ children, ∀ budget, (prune budget child).description.size ≤ child.size)
    (depth : Nat) (budget : Budget) :
    sizeAll (pruneAll depth budget children).children ≤ sizeAll children := by
  induction children generalizing budget with
  | nil => exact Nat.le_refl _
  | cons child rest ih =>
    exact Nat.add_le_add (hchildren child List.mem_cons_self _)
      (ih (fun c hc => hchildren c (List.mem_cons_of_mem child hc)) _)

/-- Pruning makes no tree larger, whatever the budget. -/
theorem size_prune_le (d : Description) (budget : Budget) :
    (prune budget d).description.size ≤ d.size := by
  induction d using prune_induct generalizing budget with
  | thing ps => exact Nat.le_refl _
  | elementary d hkind =>
    rw [prune_elementary hkind, keepOrDrop]
    split
    · exact Nat.le_refl _
    · exact Nat.zero_le _
  | categories pages hierarchy ps =>
    rw [prune, pruneCategories]
    dsimp only
    split
    · exact Nat.le_refl _
    · split
      · exact Nat.zero_le _
      · simp only [size]
        split
        · exact Nat.le_refl _
        · exact List.length_take_le' _ _
  | someProperty property inner ps ih =>
    rw [prune]
    split
    · exact Nat.zero_le _
    · exact Nat.add_le_add_left (ih _) 1
  | container d hkind ih =>
    rw [prune_container hkind]
    split
    · exact Nat.le_refl _
    · split
      · exact Nat.zero_le _
      · rw [hkind.size_eq]
        exact Nat.le_trans (size_pruneContainer_le (hkind.rebuild_costsAtMost _))
          (sizeAll_pruneAll_le ih _ _)

end Description

/-- Something is missing, and something is reported. -/
structure Pruned.Cuts (p : Pruned) (d : Description) : Prop where
  dropped : p.dropped ≠ []
  size : p.description.size < d.size

namespace Description

theorem drop_cuts {d : Description} (h : 0 < d.size) (left : Budget) : (d.drop left).Cuts d :=
  ⟨List.cons_ne_nil _ _, h⟩

theorem pruneCategories_cuts {pages : List Page} {hierarchy : Bool} {ps : List PrintRequest}
    {budget : Budget} (h : ¬ (categories pages hierarchy ps).size ≤ budget.size) :
    (pruneCategories pages hierarchy ps budget).Cuts (.categories pages hierarchy ps) := by
  unfold pruneCategories
  dsimp only
  rw [if_neg h]
  split
  · exact drop_cuts (by omega) budget
  · refine ⟨List.cons_ne_nil _ _, ?_⟩
    simp only [size] at h ⊢
    split at h
    · omega
    · next hhierarchy =>
      rw [if_neg hhierarchy, if_neg hhierarchy, List.length_take]
      omega

/-- A container is cut if its children are: what they report gets lost with
them only where the container itself is reported. -/
theorem pruneContainer_cuts {d : Description} (hkind : IsContainer d) (budget : Budget)
    {pruned : PrunedChildren} (hdropped : pruned.dropped ≠ [])
    (hsize : sizeAll pruned.children < sizeAll d.children) :
    (pruneContainer d (d.rebuild pruned.children) budget pruned).Cuts d := by
  constructor
  · obtain ⟨-, heq⟩ | ⟨_, -, heq⟩ | ⟨-, heq⟩ :=
      pruneContainer_cases d (d.rebuild pruned.children) budget pruned
    · rw [heq]
      exact List.cons_ne_nil _ _
    · rw [heq]
      exact hdropped
    · rw [heq]
      exact hdropped
  · rw [hkind.size_eq]
    exact Nat.lt_of_le_of_lt (size_pruneContainer_le (hkind.rebuild_costsAtMost _)) hsize

/-- Some child is cut if the children are not covered together, since those
in front of it take no more than they cost. -/
theorem pruneAll_of_not_covers {children : List Description}
    (hcovered : ∀ child ∈ children, ∀ budget : Budget, budget.Covers child →
      prune budget child = ⟨child, budget.after child, []⟩)
    (hcut : ∀ child ∈ children, ∀ budget : Budget, ¬ budget.Covers child →
      (prune budget child).Cuts child)
    (depth : Nat) (budget : Budget)
    (h : ¬ (sizeAll children ≤ budget.size ∧ depthAll children ≤ depth)) :
    (pruneAll depth budget children).dropped ≠ [] ∧
      sizeAll (pruneAll depth budget children).children < sizeAll children := by
  induction children generalizing budget with
  | nil => exact absurd ⟨Nat.zero_le _, Nat.zero_le _⟩ h
  | cons child rest ih =>
    rw [pruneAll]
    simp only [sizeAll, depthAll] at h ⊢
    by_cases hcovers : (Budget.mk budget.size depth).Covers child
    · have hfirst := hcovered child List.mem_cons_self _ hcovers
      obtain ⟨hsize, hdepth⟩ := hcovers
      dsimp only at hsize hdepth
      have hrest := ih (fun c hc => hcovered c (List.mem_cons_of_mem child hc))
        (fun c hc => hcut c (List.mem_cons_of_mem child hc))
        ⟨budget.size - child.size, min budget.depth (depth - child.depth)⟩
        (by dsimp only; omega)
      rw [hfirst]
      dsimp only [Budget.after]
      exact ⟨by simpa using hrest.1, Nat.add_lt_add_left hrest.2 _⟩
    · have hfirst := hcut child List.mem_cons_self _ hcovers
      have hrest := sizeAll_pruneAll_le (fun c (_ : c ∈ rest) => size_prune_le c) depth
        ⟨(prune ⟨budget.size, depth⟩ child).left.size,
          min budget.depth (prune ⟨budget.size, depth⟩ child).left.depth⟩
      exact ⟨fun hnil => hfirst.dropped (List.append_eq_nil_iff.1 hnil).1,
        Nat.add_lt_add_of_lt_of_le hfirst.size hrest⟩

/-- A tree that is not covered is cut. -/
theorem prune_of_not_covers {d : Description} (hd : d.WellFormed) (hbranching : d.Branching)
    (budget : Budget) (h : ¬ budget.Covers d) : (prune budget d).Cuts d := by
  unfold Budget.Covers at h
  induction d using prune_induct generalizing budget with
  | thing ps => exact absurd ⟨Nat.zero_le _, Nat.zero_le _⟩ h
  | elementary d hkind =>
    have hsize := hkind.size_eq
    have hdepth := hkind.depth_eq
    rw [prune_elementary hkind, keepOrDrop, if_neg (by omega)]
    exact drop_cuts (by omega) budget
  | categories pages hierarchy ps =>
    have hsize : ¬ (categories pages hierarchy ps).size ≤ budget.size :=
      fun hsize => h ⟨hsize, Nat.zero_le _⟩
    rw [prune]
    exact pruneCategories_cuts hsize
  | someProperty property inner ps ih =>
    cases hd with
    | someProperty _ _ hinner =>
      simp only [size, depth] at h
      rw [prune]
      split
      · exact drop_cuts (by rw [size]; omega) budget
      · obtain ⟨hdropped, hsize⟩ := ih hinner (throughout_someProperty.1 hbranching).2
          ⟨budget.size - 1, budget.depth - 1⟩ (by dsimp only; omega)
        exact ⟨hdropped, Nat.add_lt_add_left hsize 1⟩
  | container d hkind ih =>
    have hsize := hkind.size_eq
    rw [hsize, hkind.depth_eq] at h
    have hne : d.children ≠ [] := by
      intro hnil
      rw [hnil] at h
      exact h ⟨Nat.zero_le _, Nat.zero_le _⟩
    have hpos := hbranching.sizeAll_pos hne
    rw [prune_container hkind, if_neg (by simpa using hne)]
    split
    · exact drop_cuts (by omega) budget
    · obtain ⟨hdropped, hless⟩ := pruneAll_of_not_covers
        (fun child hchild _ hcovers => prune_of_covers (hd.of_mem_children hchild)
          (hbranching.of_mem_children hchild) hcovers)
        (fun child hchild budget hnot => ih child hchild (hd.of_mem_children hchild)
          (hbranching.of_mem_children hchild) budget hnot) budget.depth budget h
      exact pruneContainer_cuts hkind budget hdropped hless

-- =============================================================== the report

/-- In a well-formed tree whose containers branch, pruning reports exactly
when it changes something, and that is when the budget does not cover the
tree. A tree that is covered is paid for exactly, and so its own budget is
enough. -/
theorem prune_reports_changes {d : Description} (hd : d.WellFormed) (hbranching : d.Branching)
    (budget : Budget) (log : List Text) :
    (log ++ (prune budget d).dropped = log ↔ (prune budget d).description = d) ∧
      ((prune budget d).description = d ↔ d.size ≤ budget.size ∧ d.depth ≤ budget.depth) ∧
      ((prune budget d).description = d →
        (prune budget d).left = ⟨budget.size - d.size, budget.depth - d.depth⟩) ∧
      prune (.of d) d = ⟨d, ⟨0, 0⟩, []⟩ := by
  have hown : prune (.of d) d = ⟨d, ⟨0, 0⟩, []⟩ := by
    have hcovers : (Budget.of d).Covers d := ⟨Nat.le_refl _, Nat.le_refl _⟩
    rw [prune_of_covers hd hbranching hcovers, Budget.after, Budget.of, Nat.sub_self, Nat.sub_self]
  rw [List.append_right_eq_self]
  by_cases hcovers : budget.Covers d
  · rw [prune_of_covers hd hbranching hcovers]
    exact ⟨by simp, ⟨fun _ => hcovers, fun _ => rfl⟩, fun _ => rfl, hown⟩
  · obtain ⟨hdropped, hsize⟩ := prune_of_not_covers hd hbranching budget hcovers
    have hchanged : (prune budget d).description ≠ d := by
      intro heq
      rw [heq] at hsize
      exact Nat.lt_irrefl _ hsize
    exact ⟨⟨fun h => absurd h hdropped, fun h => absurd h hchanged⟩,
      ⟨fun h => absurd h hchanged, fun h => absurd h hcovers⟩, fun h => absurd h hchanged, hown⟩

/-- A tree of size four, at a budget of three and at one of five. -/
theorem prune_reports_changes_four :
    let a := Page.category "A".toList
    let b := Page.category "B".toList
    let property : Property := ⟨"Located in".toList, false⟩
    let asia := value (.page (Page.main "Asia".toList)) (some property) .equal []
    let d := conjunction [categories [a, b] false [], someProperty property asia []] []
    (d.WellFormed ∧ d.Branching) ∧
      (prune ⟨3, 1⟩ d).dropped = [asia.write] ∧ (prune ⟨3, 1⟩ d).description ≠ d ∧
      (prune ⟨5, 1⟩ d).dropped = [] ∧ (prune ⟨5, 1⟩ d).left = ⟨1, 0⟩ := by
  intro a b property asia d
  have hd : d.WellFormed := by
    refine .conjunction _ ?_ ?_
    · exact List.forall_mem_cons.2 ⟨⟨rfl, rfl, rfl⟩, List.forall_mem_singleton.2 ⟨rfl, rfl, rfl⟩⟩
    · exact List.forall_mem_cons.2 ⟨.categories _ _ (by simp),
        List.forall_mem_singleton.2 (.someProperty _ _ (.value _ _ _ _))⟩
  have hproperty : (someProperty property asia []).Throughout Branches :=
    throughout_someProperty.2 ⟨.inl rfl, (throughout_leaf rfl rfl).2 (.inl rfl)⟩
  have hbranching : d.Branching :=
    throughout_conjunction.2 ⟨.inr ⟨by decide, by decide⟩,
      List.forall_mem_cons.2 ⟨(throughout_leaf rfl rfl).2 (.inl rfl),
        List.forall_mem_singleton.2 hproperty⟩⟩
  obtain ⟨-, hthree, -⟩ := prune_reports_changes hd hbranching ⟨3, 1⟩ []
  obtain ⟨hquiet, hfive, hleft, -⟩ := prune_reports_changes hd hbranching ⟨5, 1⟩ []
  have hchanged : (prune ⟨3, 1⟩ d).description ≠ d := fun heq => absurd (hthree.1 heq) (by decide)
  have hkept : (prune ⟨5, 1⟩ d).description = d := hfive.2 (by decide)
  exact ⟨⟨hd, hbranching⟩, rfl, hchanged, hquiet.2 hkept, hleft hkept⟩

end Description

end InlineQuery
