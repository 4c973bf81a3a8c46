/-
Nodes and where they stand.

What may be said of a node often depends on what is around it. The condition
that any value will do is what a property may ask for, but it is of no use as
one of several conjuncts; a comparison makes sense on the values of its own
property only. `OccursAt` gives a node of a tree together with the nodes that
it stands in, and the rest of this file names the places where conditions on
values stand.
-/
import InlineQuery.Description.Basic

namespace InlineQuery

namespace Description

/-- The conditions directly inside of a node. -/
def parts : Description → List Description
  | .someProperty _ inner _ => [inner]
  | d => d.children

/-- The node occurs in the tree `root` inside of the nodes `path`, the innermost
of which comes first. -/
inductive OccursAt (root : Description) : List Description → Description → Prop
  | root : OccursAt root [] root
  | part {path : List Description} {parent node : Description} :
    OccursAt root path parent → node ∈ parent.parts → OccursAt root (parent :: path) node

/-- At the path stands the condition on the values of the property. -/
inductive IsOperandOf (property : Property) : List Description → Prop
  | direct (inner : Description) (ps : List PrintRequest) (path : List Description) :
    IsOperandOf property (.someProperty property inner ps :: path)

/-- At the path stands the condition on the values of the property, or one of
several alternatives for it. -/
inductive IsAlternativeOf (property : Property) : List Description → Prop
  | operand {path : List Description} : IsOperandOf property path → IsAlternativeOf property path
  | disjunct (children : List Description) (categoryIndex : Option Nat) (always : Bool)
      (ps : List PrintRequest) {path : List Description} :
    IsOperandOf property path →
      IsAlternativeOf property (.disjunction children categoryIndex always ps :: path)

end Description

end InlineQuery
