/-
Building containers.

A conjunction absorbs the conjunctions inserted into it and ignores
conditions that always hold. A disjunction absorbs disjunctions, becomes
trivially true with the first condition that always holds, and keeps at most
one category list, into which every further one is merged. The print
requests of whatever is inserted move up to the container.

These rules are why a container built here never has a child of its own
kind, nor one with print requests.
-/
import InlineQuery.Description.Basic

namespace InlineQuery

-- ============================================================ conjunctions

/-- A conjunction that is being built: its children and the print requests
collected from what was inserted. -/
structure Conjuncts where
  children : List Description
  prints : List PrintRequest

namespace Conjuncts

/-- The conjunction of nothing. -/
def empty : Conjuncts := ⟨[], []⟩

/-- One more conjunct. -/
def insert (c : Conjuncts) : Description → Conjuncts
  | .thing ps => ⟨c.children, c.prints ++ ps⟩
  | .conjunction inner ps => ⟨c.children ++ inner, c.prints ++ ps⟩
  | child => ⟨c.children ++ [child.withPrints []], c.prints ++ child.prints⟩

/-- The conjunction as a node. -/
def toDescription (c : Conjuncts) : Description :=
  .conjunction c.children c.prints

end Conjuncts

-- ============================================================ disjunctions

/-- A disjunction that is being built: its children, the place of its only
category list, whether it has become trivially true, and the print requests
collected from what was inserted. -/
structure Disjuncts where
  children : List Description
  categoryIndex : Option Nat
  always : Bool
  prints : List PrintRequest

namespace Disjuncts

/-- The disjunction of nothing. -/
def empty : Disjuncts := ⟨[], none, false, []⟩

/-- A disjunction that any page satisfies; its children no longer matter. -/
def makeTrue (d : Disjuncts) : Disjuncts := ⟨[], none, true, d.prints⟩

/-- The collected print requests, with more of them at the end. -/
def addPrints (d : Disjuncts) (requests : List PrintRequest) : Disjuncts :=
  { d with prints := d.prints ++ requests }

/-- One more child, at the end and without print requests. -/
def push (d : Disjuncts) (child : Description) : Disjuncts :=
  { d with children := d.children ++ [child.withPrints []] }

/-- The pages of a category list: added to the list that is there already,
or else as a child of their own. -/
def insertCategories (d : Disjuncts) (pages : List Page) (hierarchy : Bool) : Disjuncts :=
  match d.categoryIndex.bind fun i => (d.children[i]?).map fun child => (i, child) with
  | some (i, .categories old oldHierarchy requests) =>
    { d with
      children := d.children.set i
        (.categories (old ++ pages) (oldHierarchy || hierarchy) requests) }
  | _ =>
    { d with
      children := d.children ++ [.categories pages hierarchy []]
      categoryIndex := some d.children.length }

mutual

/-- One more disjunct. A disjunction that is true stays as it is, print
requests apart. -/
def insert (d : Disjuncts) : Description → Disjuncts
  | .thing ps =>
    let d := d.addPrints ps
    if d.always then d else d.makeTrue
  | .disjunction inner _ always ps =>
    let d := d.addPrints ps
    if d.always then d else if always then d.makeTrue else d.insertAll inner
  | .categories pages hierarchy ps =>
    let d := d.addPrints ps
    if d.always then d else d.insertCategories pages hierarchy
  | child =>
    let d := d.addPrints child.prints
    if d.always then d else d.push child

/-- More disjuncts, in order. -/
def insertAll (d : Disjuncts) : List Description → Disjuncts
  | [] => d
  | child :: rest => (d.insert child).insertAll rest

end

/-- The disjunction as a node. -/
def toDescription (d : Disjuncts) : Description :=
  .disjunction d.children d.categoryIndex d.always d.prints

theorem insertAll_eq_foldl (d : Disjuncts) (children : List Description) :
    d.insertAll children = children.foldl Disjuncts.insert d := by
  induction children generalizing d with
  | nil => rw [insertAll]; rfl
  | cons child rest ih => rw [insertAll, ih]; rfl

end Disjuncts

namespace Description

-- ================================================================ builders

/-- The conjunction of the conditions. -/
def allOf (children : List Description) : Description :=
  (children.foldl Conjuncts.insert Conjuncts.empty).toDescription

/-- The disjunction of the conditions. -/
def anyOf (children : List Description) : Description :=
  (children.foldl Disjuncts.insert Disjuncts.empty).toDescription

/-- Membership in one of the categories; none without any category. -/
def ofCategories? (hierarchy : Bool) (pages : List Page) : Option Description :=
  if pages.isEmpty then none else some (.categories pages hierarchy [])

/-- The container with one more child; none if the node is no container. -/
def insert? (d child : Description) : Option Description :=
  match d with
  | .conjunction children ps =>
    some (Conjuncts.insert ⟨children, ps⟩ child).toDescription
  | .disjunction children categoryIndex always ps =>
    some (Disjuncts.insert ⟨children, categoryIndex, always, ps⟩ child).toDescription
  | _ => none

/-- Two category lists as one: the pages of both in order, without removing
repetitions, expanded over the hierarchy if either was. -/
def mergeCategories? : Description → Description → Option Description
  | .categories pages hierarchy ps, .categories more moreHierarchy qs =>
    some (.categories (pages ++ more) (hierarchy || moreHierarchy) (ps ++ qs))
  | _, _ => none

end Description

end InlineQuery
