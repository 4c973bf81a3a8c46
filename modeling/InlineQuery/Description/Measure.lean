/-
What evaluating a description may cost, and what it makes use of.

The size counts elementary conditions, the depth counts property conditions
inside one another; the features are those that some node relies on. A
category list is one condition if its hierarchy is expanded, whatever its
length, since the expansion dwarfs the list.
-/
import InlineQuery.Description.Basic
import InlineQuery.Feature

namespace InlineQuery

namespace Description

-- ==================================================================== size

mutual

/-- The number of elementary conditions. -/
def size : Description → Nat
  | .thing _ => 0
  | .value _ _ _ _ => 1
  | .categories pages hierarchy _ => if hierarchy then 1 else pages.length
  | .inNamespace _ _ _ => 1
  | .concept _ _ => 1
  | .someProperty _ inner _ => 1 + size inner
  | .conjunction children _ => sizeAll children
  | .disjunction children _ _ _ => sizeAll children

/-- The number of elementary conditions of several trees. -/
def sizeAll : List Description → Nat
  | [] => 0
  | child :: rest => size child + sizeAll rest

end

-- =================================================================== depth

mutual

/-- The number of property conditions inside one another. -/
def depth : Description → Nat
  | .someProperty _ inner _ => 1 + depth inner
  | .conjunction children _ => depthAll children
  | .disjunction children _ _ _ => depthAll children
  | _ => 0

/-- The greatest depth of several trees; zero if there are none. -/
def depthAll : List Description → Nat
  | [] => 0
  | child :: rest => max (depth child) (depthAll rest)

end

-- ================================================================ features

mutual

/-- The features that the tree makes use of. -/
def features : Description → FeatureSet
  | .thing _ => .empty
  | .value _ _ _ _ => .empty
  | .categories pages _ _ =>
    if pages.length > 1 then (FeatureSet.only .category).union (.only .disjunction)
    else .only .category
  | .inNamespace _ _ _ => .only .namespaces
  | .concept _ _ => .only .concept
  | .someProperty _ inner _ => (FeatureSet.only .property).union (features inner)
  | .conjunction children _ => (FeatureSet.only .conjunction).union (featuresAll children)
  | .disjunction children _ _ _ => (FeatureSet.only .disjunction).union (featuresAll children)

/-- The features that several trees make use of. -/
def featuresAll : List Description → FeatureSet
  | [] => .empty
  | child :: rest => (features child).union (featuresAll rest)

end

/-- The feature that has to be permitted for the root of the tree. -/
def requiredFeature? : Description → Option Feature
  | .someProperty _ _ _ => some .property
  | .categories _ _ _ => some .category
  | .concept _ _ => some .concept
  | .conjunction _ _ => some .conjunction
  | .disjunction _ _ _ _ => some .disjunction
  | _ => none

-- ============================================================== singletons

mutual

/-- At most one page can satisfy the condition, whatever the wiki holds.
Disjuncts that name the same page are not recognized. -/
def isSingleton : Description → Bool
  | .value _ _ comparator _ => comparator == .equal
  | .conjunction children _ => anySingleton children
  | .disjunction children _ _ _ =>
    match children with
    | [child] => isSingleton child
    | _ => false
  | _ => false

/-- One of the trees is a singleton. -/
def anySingleton : List Description → Bool
  | [] => false
  | child :: rest => isSingleton child || anySingleton rest

end

-- ============================================ the measures of several trees

theorem size_le_sizeAll {child : Description} {children : List Description}
    (h : child ∈ children) : size child ≤ sizeAll children := by
  induction children with
  | nil => cases h
  | cons c rest ih =>
    rw [sizeAll]
    rcases List.mem_cons.1 h with rfl | h
    · exact Nat.le_add_right _ _
    · exact Nat.le_trans (ih h) (Nat.le_add_left _ _)

@[simp] theorem sizeAll_append (first second : List Description) :
    sizeAll (first ++ second) = sizeAll first + sizeAll second := by
  induction first with
  | nil => simp [sizeAll]
  | cons child rest ih => rw [List.cons_append, sizeAll, sizeAll, ih, Nat.add_assoc]

@[simp] theorem depthAll_append (first second : List Description) :
    depthAll (first ++ second) = max (depthAll first) (depthAll second) := by
  induction first with
  | nil => simp [depthAll]
  | cons child rest ih => rw [List.cons_append, depthAll, depthAll, ih, Nat.max_assoc]

@[simp] theorem size_withPrints (requests : List PrintRequest) (d : Description) :
    (d.withPrints requests).size = d.size := by
  cases d <;> rfl

@[simp] theorem depth_withPrints (requests : List PrintRequest) (d : Description) :
    (d.withPrints requests).depth = d.depth := by
  cases d <;> rfl

theorem has_featuresAll (children : List Description) (feature : Feature) :
    (featuresAll children).has feature =
      children.any fun child => (features child).has feature := by
  induction children with
  | nil => rw [featuresAll]; simp
  | cons child rest ih => rw [featuresAll]; simp [ih]

end Description

end InlineQuery
