/-
What trees and the children of containers are made of.

A node occurs in a tree at its root or further down (`OccursIn`), and a
property of nodes may hold throughout a tree (`Throughout`).

Containers take apart what is inserted into them: a conjunction absorbs the
children of a conjunction, a disjunction those of a disjunction, and it
merges category lists. A property that survives this taking apart
(`ConjunctHeritable`, `DisjunctHeritable`) therefore holds of every child of
a container as soon as it holds of everything that was inserted
(`forall_insert`, `forall_allOf`, `forall_anyOf`).
-/
import InlineQuery.Description.Build

namespace InlineQuery

namespace Description

/-- The node occurs in a tree: as the tree itself, or in the inner condition
of a property, or in a child of a container. -/
inductive OccursIn (node : Description) : Description → Prop
  | root : OccursIn node node
  | inner {property : Property} {inner : Description} {ps : List PrintRequest} :
    OccursIn node inner → OccursIn node (.someProperty property inner ps)
  | conjunct {child : Description} {children : List Description} {ps : List PrintRequest} :
    child ∈ children → OccursIn node child → OccursIn node (.conjunction children ps)
  | disjunct {child : Description} {children : List Description} {categoryIndex : Option Nat}
      {always : Bool} {ps : List PrintRequest} :
    child ∈ children → OccursIn node child →
      OccursIn node (.disjunction children categoryIndex always ps)

/-- Every node of the tree has the property. -/
def Throughout (P : Description → Prop) (d : Description) : Prop :=
  ∀ node : Description, node.OccursIn d → P node

section Throughout

variable {P : Description → Prop}

theorem throughout_someProperty {property : Property} {inner : Description}
    {ps : List PrintRequest} :
    (someProperty property inner ps).Throughout P ↔
      P (someProperty property inner ps) ∧ inner.Throughout P := by
  constructor
  · exact fun h => ⟨h _ .root, fun node hnode => h node (.inner hnode)⟩
  · rintro ⟨hroot, hinner⟩ node hnode
    cases hnode with
    | root => exact hroot
    | inner hnode => exact hinner node hnode

theorem throughout_conjunction {children : List Description} {ps : List PrintRequest} :
    (conjunction children ps).Throughout P ↔
      P (conjunction children ps) ∧ ∀ child ∈ children, child.Throughout P := by
  constructor
  · exact fun h => ⟨h _ .root, fun child hchild node hnode => h node (.conjunct hchild hnode)⟩
  · rintro ⟨hroot, hchildren⟩ node hnode
    cases hnode with
    | root => exact hroot
    | conjunct hchild hnode => exact hchildren _ hchild node hnode

theorem throughout_disjunction {children : List Description} {categoryIndex : Option Nat}
    {always : Bool} {ps : List PrintRequest} :
    (disjunction children categoryIndex always ps).Throughout P ↔
      P (disjunction children categoryIndex always ps) ∧
        ∀ child ∈ children, child.Throughout P := by
  constructor
  · exact fun h => ⟨h _ .root, fun child hchild node hnode => h node (.disjunct hchild hnode)⟩
  · rintro ⟨hroot, hchildren⟩ node hnode
    cases hnode with
    | root => exact hroot
    | disjunct hchild hnode => exact hchildren _ hchild node hnode

/-- A node without anything below it is all of its tree. -/
theorem throughout_leaf {d : Description} (hproperty : d.isSomeProperty = false)
    (hchildren : d.children = []) : d.Throughout P ↔ P d := by
  refine ⟨fun h => h d .root, fun h node hnode => ?_⟩
  cases hnode with
  | root => exact h
  | inner => cases hproperty
  | conjunct hchild =>
    rw [children] at hchildren
    rw [hchildren] at hchild
    cases hchild
  | disjunct hchild =>
    rw [children] at hchildren
    rw [hchildren] at hchild
    cases hchild

theorem Throughout.of_mem_children {d child : Description} (h : d.Throughout P)
    (hchild : child ∈ d.children) : child.Throughout P := by
  cases d with
  | conjunction => exact (throughout_conjunction.1 h).2 child hchild
  | disjunction => exact (throughout_disjunction.1 h).2 child hchild
  | _ => cases hchild

/-- The print requests of the root do not matter to a property that does not
look at them. -/
theorem Throughout.withPrints {d : Description} (h : d.Throughout P)
    (hprints : ∀ (node : Description) (requests : List PrintRequest),
      P node → P (node.withPrints requests))
    (requests : List PrintRequest) : (d.withPrints requests).Throughout P := by
  have hroot := hprints d requests (h d .root)
  cases d with
  | someProperty => exact throughout_someProperty.2 ⟨hroot, (throughout_someProperty.1 h).2⟩
  | conjunction => exact throughout_conjunction.2 ⟨hroot, (throughout_conjunction.1 h).2⟩
  | disjunction => exact throughout_disjunction.2 ⟨hroot, (throughout_disjunction.1 h).2⟩
  | _ => exact (throughout_leaf rfl rfl).2 hroot

end Throughout

variable {Q : Description → Prop}

/-- A property that a condition keeps when it becomes a conjunct: its print
requests do not matter, and a conjunction hands it down to its children. -/
structure ConjunctHeritable (Q : Description → Prop) : Prop where
  withPrints : ∀ d requests, Q d → Q (d.withPrints requests)
  children : ∀ children ps, Q (.conjunction children ps) → ∀ c ∈ children, Q c

/-- A property that a condition keeps when it becomes a disjunct: its print
requests do not matter, a disjunction hands it down to its children, and two
category lists to the list of both. -/
structure DisjunctHeritable (Q : Description → Prop) : Prop where
  withPrints : ∀ d requests, Q d → Q (d.withPrints requests)
  children : ∀ children categoryIndex always ps,
    Q (.disjunction children categoryIndex always ps) → ∀ c ∈ children, Q c
  merge : ∀ xs h ps ys k qs, Q (.categories xs h ps) → Q (.categories ys k qs) →
    Q (.categories (xs ++ ys) (h || k) ps)

end Description

namespace Conjuncts

open Description

variable {Q : Description → Prop}

theorem forall_insert (hQ : ConjunctHeritable Q) {c : Conjuncts} {d : Description}
    (hc : ∀ x ∈ c.children, Q x) (hd : Q d) : ∀ x ∈ (c.insert d).children, Q x := by
  intro x hx
  cases d with
  | thing ps => exact hc x hx
  | conjunction inner ps =>
    rcases List.mem_append.1 hx with hx | hx
    · exact hc x hx
    · exact hQ.children inner ps hd x hx
  | _ =>
    rcases List.mem_append.1 hx with hx | hx
    · exact hc x hx
    · rw [List.mem_singleton.1 hx]
      exact hQ.withPrints _ [] hd

end Conjuncts

namespace Disjuncts

open Description

variable {Q : Description → Prop}

/-- Where a disjunction has a category list already, and which one. -/
theorem insertCategories_cases (d : Disjuncts) (pages : List Page) (hierarchy : Bool) :
    (∃ i old oldHierarchy requests, d.categoryIndex = some i ∧
        d.children[i]? = some (.categories old oldHierarchy requests) ∧
        d.insertCategories pages hierarchy =
          { d with
            children := d.children.set i
              (.categories (old ++ pages) (oldHierarchy || hierarchy) requests) }) ∨
      d.insertCategories pages hierarchy =
        { d with
          children := d.children ++ [.categories pages hierarchy []]
          categoryIndex := some d.children.length } := by
  unfold insertCategories
  split
  · next i old oldHierarchy requests hfound =>
    obtain ⟨j, hj, hmap⟩ := Option.bind_eq_some_iff.1 hfound
    obtain ⟨child, hchild, heq⟩ := Option.map_eq_some_iff.1 hmap
    cases heq
    exact .inl ⟨i, old, oldHierarchy, requests, hj, hchild, rfl⟩
  · exact .inr rfl

theorem forall_insertCategories (hQ : DisjunctHeritable Q) {d : Disjuncts} {pages : List Page}
    {hierarchy : Bool} {requests : List PrintRequest} (hd : ∀ x ∈ d.children, Q x)
    (hcategories : Q (.categories pages hierarchy requests)) :
    ∀ x ∈ (d.insertCategories pages hierarchy).children, Q x := by
  intro x hx
  obtain ⟨i, old, oldHierarchy, ps, -, hold, heq⟩ | heq :=
    d.insertCategories_cases pages hierarchy
  · rw [heq] at hx
    rcases List.mem_or_eq_of_mem_set hx with hx | rfl
    · exact hd x hx
    · exact hQ.merge _ _ _ _ _ _ (hd _ (List.mem_of_getElem? hold)) hcategories
  · rw [heq] at hx
    rcases List.mem_append.1 hx with hx | hx
    · exact hd x hx
    · rw [List.mem_singleton.1 hx]
      exact hQ.withPrints _ [] hcategories

theorem forall_insert (hQ : DisjunctHeritable Q) {d : Disjuncts} {child : Description}
    (hd : ∀ x ∈ d.children, Q x) (hchild : Q child) : ∀ x ∈ (d.insert child).children, Q x := by
  induction child using Description.induct generalizing d with
  | thing ps =>
    simp only [insert]
    split
    · exact hd
    · exact fun x hx => nomatch hx
  | categories pages hierarchy ps =>
    simp only [insert]
    split
    · exact hd
    · exact forall_insertCategories (d := d.addPrints ps) hQ hd hchild
  | disjunction inner categoryIndex always ps ih =>
    simp only [insert]
    split
    · exact hd
    · split
      · exact fun x hx => nomatch hx
      · -- absorbed child by child, each of which inherits from the disjunction
        rw [insertAll_eq_foldl]
        exact List.foldlRecOn inner insert (b := d.addPrints ps)
          (motive := fun d => ∀ x ∈ d.children, Q x) hd fun d hd c hc =>
            ih c hc hd (hQ.children _ _ _ _ hchild c hc)
  | _ =>
    simp only [insert]
    split
    · exact hd
    · intro x hx
      rcases List.mem_append.1 hx with hx | hx
      · exact hd x hx
      · rw [List.mem_singleton.1 hx]
        exact hQ.withPrints _ [] hchild

end Disjuncts

namespace Description

variable {Q : Description → Prop}

theorem forall_allOf (hQ : ConjunctHeritable Q) {children : List Description}
    (hchildren : ∀ d ∈ children, Q d) : ∀ x ∈ (allOf children).children, Q x :=
  List.foldlRecOn children Conjuncts.insert (motive := fun c => ∀ x ∈ c.children, Q x)
    (by simp [Conjuncts.empty]) fun _ hc d hd => Conjuncts.forall_insert hQ hc (hchildren d hd)

theorem forall_anyOf (hQ : DisjunctHeritable Q) {children : List Description}
    (hchildren : ∀ d ∈ children, Q d) : ∀ x ∈ (anyOf children).children, Q x :=
  List.foldlRecOn children Disjuncts.insert (motive := fun c => ∀ x ∈ c.children, Q x)
    (by simp [Disjuncts.empty]) fun _ hc d hd => Disjuncts.forall_insert hQ hc (hchildren d hd)

end Description

end InlineQuery
