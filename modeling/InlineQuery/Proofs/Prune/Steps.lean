/-
The steps of pruning.

Pruning does with most nodes one of two things. An elementary condition is
kept or dropped (`prune_elementary`). A container is left alone if it is
empty, dropped if no size is left, and otherwise put together again from what
became of its children (`prune_container`), with three ways out
(`pruneContainer_cases`). Conjunctions and disjunctions differ in nothing but
the builder (`rebuild`), and so a proof about pruning has one case for both of
them (`prune_induct`). Where the way out makes no difference, what is left of
a container is either one of its new children or the whole
(`pruneContainer_induct`).
-/
import InlineQuery.Description.Prune
import InlineQuery.Proofs.Description.Children

namespace InlineQuery

namespace Description

-- ================================================================= the nodes

/-- Conditions that are kept or dropped as a whole. -/
def IsElementary : Description → Prop
  | .value _ _ _ _ => True
  | .inNamespace _ _ _ => True
  | .concept _ _ => True
  | _ => False

/-- Conjunctions and disjunctions. -/
def IsContainer : Description → Prop
  | .conjunction _ _ => True
  | .disjunction _ _ _ _ => True
  | _ => False

/-- A container of the same kind, built of other children. -/
def rebuild (d : Description) (children : List Description) : Description :=
  match d with
  | .conjunction _ _ => allOf children
  | .disjunction _ _ _ _ => anyOf children
  | d => d

/-- A proof about what pruning makes of a tree, by what it does with the
root. -/
theorem prune_induct {P : Description → Prop} (thing : ∀ ps, P (.thing ps))
    (elementary : ∀ d, IsElementary d → P d)
    (categories : ∀ pages hierarchy ps, P (.categories pages hierarchy ps))
    (someProperty : ∀ property inner ps, P inner → P (.someProperty property inner ps))
    (container : ∀ d, IsContainer d → (∀ child ∈ d.children, P child) → P d)
    (d : Description) : P d := by
  induction d using Description.induct with
  | thing ps => exact thing ps
  | value => exact elementary _ trivial
  | categories pages hierarchy ps => exact categories pages hierarchy ps
  | inNamespace => exact elementary _ trivial
  | concept => exact elementary _ trivial
  | someProperty property inner ps ih => exact someProperty property inner ps ih
  | conjunction _ _ ih => exact container _ trivial ih
  | disjunction _ _ _ _ ih => exact container _ trivial ih

variable {d : Description}

theorem IsElementary.size_eq (h : IsElementary d) : d.size = 1 := by
  cases d <;> first | rfl | cases h

theorem IsElementary.depth_eq (h : IsElementary d) : d.depth = 0 := by
  cases d <;> first | rfl | cases h

theorem IsContainer.size_eq (h : IsContainer d) : d.size = sizeAll d.children := by
  cases d <;> first | rfl | cases h

theorem IsContainer.depth_eq (h : IsContainer d) : d.depth = depthAll d.children := by
  cases d <;> first | rfl | cases h

/-- What holds of every node of a container holds of its own node and of all of
its children. -/
theorem IsContainer.throughout_iff {P : Description → Prop} (h : IsContainer d) :
    d.Throughout P ↔ P d ∧ ∀ child ∈ d.children, child.Throughout P := by
  cases d with
  | conjunction => exact throughout_conjunction
  | disjunction => exact throughout_disjunction
  | _ => cases h

/-- What both builders do, `rebuild` does. -/
theorem IsContainer.rebuild_cases (h : IsContainer d) (children : List Description) :
    d.rebuild children = allOf children ∨ d.rebuild children = anyOf children := by
  cases d with
  | conjunction => exact .inl rfl
  | disjunction => exact .inr rfl
  | _ => cases h

theorem IsContainer.isContainer_rebuild (h : IsContainer d) (children : List Description) :
    IsContainer (d.rebuild children) := by
  cases d with
  | conjunction => trivial
  | disjunction => trivial
  | _ => cases h

/-- What both kinds of containers hand down holds of the children of a container
that is built of such children. -/
theorem IsContainer.forall_rebuild {P : Description → Prop} (h : IsContainer d)
    (hconjuncts : ConjunctHeritable P) (hdisjuncts : DisjunctHeritable P)
    {children : List Description} (hchildren : ∀ child ∈ children, P child) :
    ∀ child ∈ (d.rebuild children).children, P child := by
  obtain heq | heq := h.rebuild_cases children
  · rw [heq]
    exact forall_allOf hconjuncts hchildren
  · rw [heq]
    exact forall_anyOf hdisjuncts hchildren

-- ================================================================= the steps

theorem prune_elementary (h : IsElementary d) (budget : Budget) :
    prune budget d = d.keepOrDrop budget := by
  cases d <;> first | rfl | cases h

theorem prune_container (h : IsContainer d) (budget : Budget) :
    prune budget d =
      if d.children.isEmpty then ⟨d, budget, []⟩
      else if budget.size = 0 then d.drop budget
      else
        let pruned := pruneAll budget.depth budget d.children
        pruneContainer d (d.rebuild pruned.children) budget pruned := by
  cases d with
  | conjunction => rfl
  | disjunction => rfl
  | _ => cases h

/-- The ways out of putting a container together again: nothing is left of
it, one child, or a container of several. -/
theorem pruneContainer_cases (d rebuilt : Description) (budget : Budget)
    (pruned : PrunedChildren) :
    (rebuilt.children = [] ∧
        pruneContainer d rebuilt budget pruned = d.drop ⟨pruned.left.size, budget.depth⟩) ∨
      (∃ child, rebuilt.children = [child] ∧
        pruneContainer d rebuilt budget pruned =
          ⟨child.withPrints d.prints, pruned.left, pruned.dropped⟩) ∨
      (2 ≤ rebuilt.children.length ∧
        pruneContainer d rebuilt budget pruned =
          ⟨rebuilt.withPrints d.prints, pruned.left, pruned.dropped⟩) := by
  unfold pruneContainer
  split
  · next hnil => exact .inl ⟨hnil, rfl⟩
  · next child hsingle => exact .inr (.inl ⟨child, hsingle, rfl⟩)
  · next hnil hsingle =>
    refine .inr (.inr ⟨?_, rfl⟩)
    match hchildren : rebuilt.children with
    | [] => exact absurd hchildren hnil
    | [child] => exact absurd hchildren (hsingle child)
    | _ :: _ :: rest => simp

/-- What is left of a container, by the way out that is taken; it gets the
print requests of the container. -/
theorem pruneContainer_induct {P : Description → Prop} {rebuilt : Description}
    (nothing : rebuilt.children = [] → ∀ ps, P (.thing ps))
    (single : ∀ child, rebuilt.children = [child] → P child)
    (several : 2 ≤ rebuilt.children.length → P rebuilt)
    (withPrints : ∀ x requests, P x → P (x.withPrints requests))
    (d : Description) (budget : Budget) (pruned : PrunedChildren) :
    P (pruneContainer d rebuilt budget pruned).description := by
  obtain ⟨hnil, heq⟩ | ⟨child, hsingle, heq⟩ | ⟨hlength, heq⟩ :=
    pruneContainer_cases d rebuilt budget pruned
  · rw [heq]
    exact nothing hnil d.prints
  · rw [heq]
    exact withPrints child d.prints (single child hsingle)
  · rw [heq]
    exact withPrints rebuilt d.prints (several hlength)

/-- The size that is left is the one that the children have left, whichever
way out is taken. -/
theorem size_left_pruneContainer (d rebuilt : Description) (budget : Budget)
    (pruned : PrunedChildren) :
    (pruneContainer d rebuilt budget pruned).left.size = pruned.left.size := by
  unfold pruneContainer
  split <;> rfl

-- ============================================================== the children

/-- What holds of every pruned child, whatever it was given. -/
theorem forall_pruneAll {P : Description → Prop} {children : List Description}
    (h : ∀ child ∈ children, ∀ budget, P (prune budget child).description) (depth : Nat)
    (budget : Budget) : ∀ d ∈ (pruneAll depth budget children).children, P d := by
  induction children generalizing budget with
  | nil => exact fun d hd => nomatch hd
  | cons child rest ih =>
    rw [pruneAll]
    exact List.forall_mem_cons.2 ⟨h child List.mem_cons_self _,
      ih (fun c hc => h c (List.mem_cons_of_mem child hc)) _⟩

/-- No child gets lost before the container is put together again. -/
theorem exists_pruneAll {P : Description → Prop} {children : List Description}
    {child : Description} (hchild : child ∈ children)
    (h : ∀ budget, P (prune budget child).description) (depth : Nat) (budget : Budget) :
    ∃ d ∈ (pruneAll depth budget children).children, P d := by
  induction children generalizing budget with
  | nil => cases hchild
  | cons first rest ih =>
    rw [pruneAll]
    rcases List.mem_cons.1 hchild with rfl | hrest
    · exact ⟨_, List.mem_cons_self, h _⟩
    · obtain ⟨d, hd, hP⟩ := ih hrest
        ⟨(prune ⟨budget.size, depth⟩ first).left.size,
          min budget.depth (prune ⟨budget.size, depth⟩ first).left.depth⟩
      exact ⟨d, List.mem_cons_of_mem _ hd, hP⟩

end Description

end InlineQuery
