/-
Cutting a description down to a budget.

Pruning walks the tree from the root and spends the budget on the conditions
it keeps. A condition that does not fit is replaced by the one that always
holds, which costs nothing, and is reported as a dropped fragment in query
syntax. Of a category list, the pages that fit are kept.

The size is shared: the children of a container draw on it one after the
other. The depth belongs to a branch: every child starts with the depth the
container was given, and the smallest depth that any of them leaves is left
by the container.
-/
import InlineQuery.Description.Build
import InlineQuery.Description.Measure
import InlineQuery.Description.Printer

namespace InlineQuery

/-- The size and depth that a tree may still use. -/
structure Budget where
  size : Nat
  depth : Nat
deriving Repr, DecidableEq

namespace Budget

/-- The budget that a description needs to be left alone. -/
def of (d : Description) : Budget := ⟨d.size, d.depth⟩

end Budget

/-- What pruning makes of a tree: the tree that is kept, the budget that is
left after it, and the fragments that were dropped, in order. -/
structure Pruned where
  description : Description
  left : Budget
  dropped : List Text

/-- What pruning makes of the children of a container. -/
structure PrunedChildren where
  children : List Description
  left : Budget
  dropped : List Text

namespace Description

/-- The node is dropped as a whole; its print requests stay. -/
def drop (d : Description) (left : Budget) : Pruned :=
  ⟨.thing d.prints, left, [d.write]⟩

/-- A node that is kept if `size` fits the budget, and dropped otherwise. -/
def keepOrDrop (d : Description) (budget : Budget) : Pruned :=
  if d.size ≤ budget.size then ⟨d, ⟨budget.size - d.size, budget.depth⟩, []⟩
  else d.drop budget

/-- A category list is cut where the budget ends. -/
def pruneCategories (pages : List Page) (hierarchy : Bool) (prints : List PrintRequest)
    (budget : Budget) : Pruned :=
  let d := Description.categories pages hierarchy prints
  if d.size ≤ budget.size then ⟨d, ⟨budget.size - d.size, budget.depth⟩, []⟩
  else if budget.size = 0 then d.drop budget
  else
    let rest := Description.categories (pages.drop budget.size) hierarchy []
    ⟨.categories (pages.take budget.size) hierarchy prints, ⟨0, budget.depth⟩, [rest.write]⟩

/-- The container `d` after its children were pruned and put together again
as `rebuilt`. A container that has lost all its children is dropped as a
whole, in one fragment; one that has kept a single child becomes that
child. -/
def pruneContainer (d rebuilt : Description) (budget : Budget) (pruned : PrunedChildren) :
    Pruned :=
  match rebuilt.children with
  | [] => d.drop ⟨pruned.left.size, budget.depth⟩
  | [child] => ⟨child.withPrints d.prints, pruned.left, pruned.dropped⟩
  | _ => ⟨rebuilt.withPrints d.prints, pruned.left, pruned.dropped⟩

mutual

/-- The tree cut down to a budget. -/
def prune (budget : Budget) : Description → Pruned
  | .thing ps => ⟨.thing ps, budget, []⟩
  | .value item property comparator ps =>
    keepOrDrop (.value item property comparator ps) budget
  | .categories pages hierarchy ps => pruneCategories pages hierarchy ps budget
  | .inNamespace id label ps => keepOrDrop (.inNamespace id label ps) budget
  | .concept page ps => keepOrDrop (.concept page ps) budget
  | .someProperty property inner ps =>
    if budget.size = 0 ∨ budget.depth = 0 then
      drop (.someProperty property inner ps) budget
    else
      let pruned := prune ⟨budget.size - 1, budget.depth - 1⟩ inner
      ⟨.someProperty property pruned.description ps, pruned.left, pruned.dropped⟩
  | .conjunction children ps =>
    let d := Description.conjunction children ps
    if children.isEmpty then ⟨d, budget, []⟩
    else if budget.size = 0 then d.drop budget
    else
      let pruned := pruneAll budget.depth budget children
      pruneContainer d (allOf pruned.children) budget pruned
  | .disjunction children categoryIndex always ps =>
    let d := Description.disjunction children categoryIndex always ps
    if children.isEmpty then ⟨d, budget, []⟩
    else if budget.size = 0 then d.drop budget
    else
      let pruned := pruneAll budget.depth budget children
      pruneContainer d (anyOf pruned.children) budget pruned

/-- The children of a container, each given `depth` and the size that its
elder siblings left. -/
def pruneAll (depth : Nat) (budget : Budget) : List Description → PrunedChildren
  | [] => ⟨[], budget, []⟩
  | child :: rest =>
    let first := prune ⟨budget.size, depth⟩ child
    let others := pruneAll depth ⟨first.left.size, min budget.depth first.left.depth⟩ rest
    ⟨first.description :: others.children, others.left, first.dropped ++ others.dropped⟩

end

end Description

end InlineQuery
