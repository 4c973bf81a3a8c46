/-
The trees that are written the way they are read.

A reader builds only some of all descriptions: containers are never nested
in containers of their own kind, category lists are merged, values know the
property they are values of. `Canonical` and `CanonicalValue` generate the
trees that a reader can build on a wiki with standard settings, the first
those of whole queries, the second those of the values of a property.

Containers come out of a reader one combination at a time. The second half
of the module says that combining the children of a canonical container, in
order, makes that container.
-/
import InlineQuery.Proofs.Description.WellFormed
import InlineQuery.Proofs.Reading.Combination
import InlineQuery.Proofs.Writing.Chunks

namespace InlineQuery

-- ================================================================ settings

/-- A wiki with the names that every wiki has and no other, where everything
is permitted and nothing is restricted. The types of its properties, the
meaning of a bare `<` and the depth of its hierarchy are its own. -/
structure Config.Standard (config : Config) : Prop where
  categoryLabel : config.categoryLabel = categoryName
  conceptLabel : config.conceptLabel = conceptName
  namespaces : config.namespaces = []
  defaultNamespaces : config.defaultNamespaces = none
  features : ∀ feature, config.features.has feature = true
  comparators : ∀ comparator, comparator ∈ config.comparators
  capitalLinks : config.capitalLinks = true

/-- A name that a property can have: one that is not taken for the name of a
class. -/
structure IsLabel (t : Text) : Prop extends IsName t where
  notCategory : Text.eqIgnoreAsciiCase t categoryName = false
  notConcept : Text.eqIgnoreAsciiCase t conceptName = false

namespace Description

/-- The condition has no form of its own as a value; as one, it is written as
a subquery. -/
def isNested : Description → Bool
  | .thing _ => false
  | .value _ _ _ _ => false
  | .disjunction _ _ _ _ => false
  | _ => true

-- ========================================================== canonical trees

mutual

/-- The conditions of whole queries. -/
inductive Canonical (config : Config) : Description → Prop
  | categories {titles : List Text} : titles ≠ [] → (∀ t ∈ titles, IsName t) →
    Canonical config (.categories (titles.map Page.category) config.expandsHierarchy [])
  | concept {title : Text} : IsName title → Canonical config (.concept (Page.concept title) [])
  | inNamespace {id : NamespaceId} {label : Text} : (label, id) ∈ canonicalNamespaces →
    id ≠ NamespaceId.concept → Canonical config (.inNamespace id label [])
  | page {title : Text} : IsName title →
    Canonical config (.value (.page (Page.main title)) none .equal [])
  | someProperty {property : Property} {inner : Description} : IsLabel property.label →
    CanonicalValue config property inner → Canonical config (.someProperty property inner [])
  | conjunction {children : List Description} : 2 ≤ children.length →
    (∀ child ∈ children, Canonical config child) →
    (∀ child ∈ children, child.isConjunction = false) →
    Canonical config (.conjunction children [])
  | disjunction {children : List Description} : 2 ≤ children.length →
    (∀ child ∈ children, Canonical config child) →
    (∀ child ∈ children, child.isDisjunction = false) → children.countP isCategories ≤ 1 →
    Canonical config (.disjunction children (children.findIdx? isCategories) false [])

/-- The conditions on the values of a property. -/
inductive CanonicalValue (config : Config) : Property → Description → Prop
  | thing {property : Property} : CanonicalValue config property (.thing [])
  | page {property : Property} {title : Text} {comparator : Comparator} :
    config.valueType property = .page → IsName title →
    CanonicalValue config property (.value (.page (Page.main title)) (some property) comparator [])
  | text {property : Property} {t : Text} {comparator : Comparator} :
    config.valueType property = .text → IsName t →
    CanonicalValue config property (.value (.text t) (some property) comparator [])
  | nested {property : Property} {d : Description} : config.valueType property = .page →
    Canonical config d → d.isNested = true → CanonicalValue config property d
  | disjunction {property : Property} {children : List Description} : 2 ≤ children.length →
    (∀ child ∈ children, CanonicalValue config property child) →
    (∀ child ∈ children, child.isDisjunction = false) →
    (∀ child ∈ children, child.isThing = false) → children.countP isCategories ≤ 1 →
    CanonicalValue config property
      (.disjunction children (children.findIdx? isCategories) false [])

end

variable {config : Config} {d : Description}

theorem Canonical.prints_eq_nil (h : Canonical config d) : d.prints = [] := by
  cases h <;> rfl

theorem Canonical.isThing_eq_false (h : Canonical config d) : d.isThing = false := by
  cases h <;> rfl

theorem CanonicalValue.prints_eq_nil {property : Property}
    (h : CanonicalValue config property d) : d.prints = [] := by
  cases h with
  | nested _ h _ => exact h.prints_eq_nil
  | _ => rfl

end Description

open Description

-- ============================================================ combinations

/-- The combination of the conditions, in order, with what is there. -/
def combineEach (permitted : FeatureSet) (mode : Mode) (current : Option Description)
    (ds : List Description) : Option Description :=
  ds.foldl (fun current d => (combine permitted mode current (some d)).result) current

-- ============================================================ conjunctions

theorem combineEach_conjunction {permitted : FeatureSet}
    (hall : ∀ feature, permitted.has feature = true) {children : List Description}
    (hlength : 2 ≤ children.length) (hchildren : ∀ d ∈ children, IsConjunct d) :
    combineEach permitted .conjunctive none children = some (.conjunction children []) := by
  have hmore (front back : List Description) (hback : ∀ d ∈ back, IsConjunct d) :
      combineEach permitted .conjunctive (some (.conjunction front [])) back =
        some (.conjunction (front ++ back) []) := by
    induction back generalizing front with
    | nil =>
      rw [List.append_nil]
      rfl
    | cons d back ih =>
      have hd := Conjuncts.insert_isConjunct (hback d List.mem_cons_self) ⟨front, []⟩
      rw [combineEach, List.foldl_cons, combine_some hall]
      show combineEach permitted .conjunctive
        (some (Conjuncts.insert ⟨front, []⟩ d).toDescription) back = _
      rw [hd]
      show combineEach permitted .conjunctive (some (.conjunction (front ++ [d]) [])) back = _
      rw [ih _ fun e he => hback e (List.mem_cons_of_mem d he), List.append_assoc]
      rfl
  match children, hlength, hchildren with
  | d :: e :: rest, _, hchildren =>
    have hd := hchildren d List.mem_cons_self
    have he := hchildren e (List.mem_cons_of_mem d List.mem_cons_self)
    have hnone : Mode.conjunctive.extend? d e = none := by
      cases d with
      | conjunction => cases hd.notConjunction
      | _ => rfl
    have hjoin : Mode.conjunctive.join d e = .conjunction [d, e] [] := by
      show Conjuncts.toDescription (Conjuncts.insert (Conjuncts.insert ⟨[], []⟩ d) e) = _
      rw [Conjuncts.insert_isConjunct hd, Conjuncts.insert_isConjunct he]
      rfl
    rw [combineEach, List.foldl_cons, List.foldl_cons, combine_none hall, combine_some hall, hnone]
    show combineEach permitted .conjunctive (some (Mode.conjunctive.join d e)) rest = _
    rw [hjoin]
    refine hmore [d, e] rest fun x hx => hchildren x ?_
    exact List.mem_cons_of_mem d (List.mem_cons_of_mem e hx)

-- ============================================================ disjunctions

theorem combineEach_disjunction {permitted : FeatureSet}
    (hall : ∀ feature, permitted.has feature = true) {children : List Description}
    (hlength : 2 ≤ children.length) (hchildren : ∀ d ∈ children, IsDisjunct d)
    (hcategories : children.countP isCategories ≤ 1) :
    combineEach permitted .disjunctive none children =
      some (.disjunction children (children.findIdx? isCategories) false []) := by
  have hmore (front back : List Description) (hback : ∀ d ∈ back, IsDisjunct d)
      (hcategories : (front ++ back).countP isCategories ≤ 1) :
      combineEach permitted .disjunctive (some (Disjuncts.ofChildren front).toDescription) back =
        some (Disjuncts.ofChildren (front ++ back)).toDescription := by
    induction back generalizing front with
    | nil =>
      rw [List.append_nil]
      rfl
    | cons d back ih =>
      have hsplit : front ++ d :: back = front ++ [d] ++ back := by
        rw [List.append_assoc]
        rfl
      have hd : (Disjuncts.ofChildren front).insert d = Disjuncts.ofChildren (front ++ [d]) := by
        refine Disjuncts.insert_isDisjunct (hback d List.mem_cons_self) ?_
        rw [hsplit, List.countP_append] at hcategories
        omega
      rw [combineEach, List.foldl_cons, combine_some hall]
      show combineEach permitted .disjunctive
        (some ((Disjuncts.ofChildren front).insert d).toDescription) back = _
      rw [hd, hsplit]
      exact ih _ (fun e he => hback e (List.mem_cons_of_mem d he)) (hsplit ▸ hcategories)
  match children, hlength, hchildren, hcategories with
  | d :: e :: rest, _, hchildren, hcategories =>
    have hd := hchildren d List.mem_cons_self
    have he := hchildren e (List.mem_cons_of_mem d List.mem_cons_self)
    have hnone : Mode.disjunctive.extend? d e = none := by
      cases d with
      | disjunction => cases hd.notDisjunction
      | _ => rfl
    have htwo : [d, e].countP isCategories ≤ 1 := by
      have : [d, e].countP isCategories ≤ (d :: e :: rest).countP isCategories :=
        (List.sublist_append_left [d, e] rest).countP_le
      omega
    have hmerge : d.mergeCategories? e = none := by
      cases d with
      | categories =>
        cases e with
        | categories => exact absurd htwo (show ¬ 2 ≤ 1 by decide)
        | _ => rfl
      | _ => rfl
    have hjoin : Mode.disjunctive.join d e = (Disjuncts.ofChildren [d, e]).toDescription := by
      rw [Mode.join, hmerge]
      show Disjuncts.toDescription (Disjuncts.insert (Disjuncts.insert (.ofChildren []) d) e) = _
      rw [Disjuncts.insert_isDisjunct hd, Disjuncts.insert_isDisjunct he htwo]
      · rfl
      · rw [List.nil_append]
        exact Nat.le_trans (List.sublist_append_left [d] [e]).countP_le htwo
    rw [combineEach, List.foldl_cons, List.foldl_cons, combine_none hall, combine_some hall, hnone]
    show combineEach permitted .disjunctive (some (Mode.disjunctive.join d e)) rest = _
    rw [hjoin]
    refine hmore [d, e] rest (fun x hx => hchildren x ?_) hcategories
    exact List.mem_cons_of_mem d (List.mem_cons_of_mem e hx)

end InlineQuery
