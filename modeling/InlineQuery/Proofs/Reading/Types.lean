/-
Values have the types of their properties.

A wiki says for every property what its values are. A query may compare the
values of a property with pages, numbers or texts, as the type has it; only
where they are pages may it ask further conditions of them. In the tree that is
read, a comparison with a value of some property stands behind that property or
among the alternatives behind it, and the item has the property's type; and what
stands behind a property of numbers or texts are such comparisons and nothing
else (`read_wellTyped`).

# The invariant

`Typed` are the conditions on pages: their comparisons name no property and ask
for a page. `TypedValue` are the conditions on the values of a property. A
disjunction of them is one again, which is why its alternatives may come from
literals, wildcards and subqueries in any order; that a condition on pages is
one is only said of properties of pages.

The type of a chain is that of its last property (`typed_chain`), and all
properties before that have pages, so that a chain is a condition on pages at
every link.
-/
import InlineQuery.Proofs.Description.Positions
import InlineQuery.Proofs.Reading.Forms
import InlineQuery.Query

namespace InlineQuery

namespace Description

-- ================================================== conditions by their type

mutual

/-- Conditions on pages, in which every property condition is one on values of
the property's type. -/
inductive Typed (config : Config) : Description → Prop
  | thing (ps : List PrintRequest) : Typed config (.thing ps)
  | page (page : Page) (ps : List PrintRequest) :
    Typed config (.value (.page page) none .equal ps)
  | categories (pages : List Page) (hierarchy : Bool) (ps : List PrintRequest) :
    Typed config (.categories pages hierarchy ps)
  | inNamespace (id : NamespaceId) (label : Text) (ps : List PrintRequest) :
    Typed config (.inNamespace id label ps)
  | concept (page : Page) (ps : List PrintRequest) : Typed config (.concept page ps)
  | someProperty (property : Property) {inner : Description} (ps : List PrintRequest) :
    TypedValue config property inner → Typed config (.someProperty property inner ps)
  | conjunction {children : List Description} (ps : List PrintRequest) :
    (∀ child ∈ children, Typed config child) → Typed config (.conjunction children ps)
  | disjunction {children : List Description} (categoryIndex : Option Nat) (always : Bool)
      (ps : List PrintRequest) : (∀ child ∈ children, Typed config child) →
    Typed config (.disjunction children categoryIndex always ps)

/-- Conditions on the values of a property. -/
inductive TypedValue (config : Config) : Property → Description → Prop
  | thing (property : Property) (ps : List PrintRequest) : TypedValue config property (.thing ps)
  | value {item : Item} {property : Property} (comparator : Comparator)
      (ps : List PrintRequest) : item.valueType = config.valueType property →
    TypedValue config property (.value item (some property) comparator ps)
  | disjunction {property : Property} {children : List Description}
      (categoryIndex : Option Nat) (always : Bool) (ps : List PrintRequest) :
    (∀ child ∈ children, TypedValue config property child) →
    TypedValue config property (.disjunction children categoryIndex always ps)
  | condition {property : Property} {d : Description} : config.valueType property = .page →
    Typed config d → TypedValue config property d

end

variable {config : Config} {property : Property} {a b d : Description}

theorem typed_withPrints (requests : List PrintRequest) (h : d.Typed config) :
    (d.withPrints requests).Typed config := by
  cases h with
  | thing => exact .thing requests
  | page page => exact .page page requests
  | categories pages hierarchy => exact .categories pages hierarchy requests
  | inNamespace id label => exact .inNamespace id label requests
  | concept page => exact .concept page requests
  | someProperty property _ hinner => exact .someProperty property requests hinner
  | conjunction _ hchildren => exact .conjunction requests hchildren
  | disjunction categoryIndex always _ hchildren =>
    exact .disjunction categoryIndex always requests hchildren

theorem typedValue_withPrints (requests : List PrintRequest) (h : d.TypedValue config property) :
    (d.withPrints requests).TypedValue config property := by
  cases h with
  | thing => exact .thing property requests
  | value comparator _ htype => exact .value comparator requests htype
  | disjunction categoryIndex always _ hchildren =>
    exact .disjunction categoryIndex always requests hchildren
  | condition hpage h => exact .condition hpage (typed_withPrints requests h)

theorem conjunctHeritable_typed (config : Config) : ConjunctHeritable (Typed config) where
  withPrints _ requests h := typed_withPrints requests h
  children _ _ h := by
    cases h with
    | conjunction _ hchildren => exact hchildren

theorem disjunctHeritable_typed (config : Config) : DisjunctHeritable (Typed config) where
  withPrints _ requests h := typed_withPrints requests h
  children _ _ _ _ h := by
    cases h with
    | disjunction _ _ _ hchildren => exact hchildren
  merge _ _ _ _ _ _ _ _ := .categories _ _ _

theorem disjunctHeritable_typedValue (config : Config) (property : Property) :
    DisjunctHeritable (TypedValue config property) where
  withPrints _ requests h := typedValue_withPrints requests h
  children _ _ _ _ h c hc := by
    cases h with
    | disjunction _ _ _ hchildren => exact hchildren c hc
    | condition hpage h =>
      cases h with
      | disjunction _ _ _ hchildren => exact .condition hpage (hchildren c hc)
  merge _ _ _ _ _ _ h _ := by
    cases h with
    | condition hpage _ => exact .condition hpage (.categories _ _ _)

end Description

open Description

-- ============================================================ combinations

namespace Mode

variable {config : Config} {property : Property} {a b : Description}

/-- The children of two conditions that are merged disjunctively, unless both
are category lists. -/
theorem forall_children_merge {Q : Description → Prop} (hQ : DisjunctHeritable Q)
    (ha : Q a) (hb : Q b) :
    ∀ x ∈ ((Disjuncts.empty.insert a).insert b).children, Q x :=
  Disjuncts.forall_insert hQ (Disjuncts.forall_insert hQ (fun _ h => nomatch h) ha) hb

theorem typed_merge (mode : Mode) (hwellFormed : a.WellFormed) (ha : a.Typed config)
    (hb : b.Typed config) : (mode.merge a b).Typed config := by
  cases mode with
  | conjunctive =>
    have hQ := conjunctHeritable_typed config
    rw [merge_conjunctive]
    exact .conjunction _
      (Conjuncts.forall_insert hQ (Conjuncts.forall_insert hQ (fun _ h => nomatch h) ha) hb)
  | disjunctive =>
    by_cases hboth : a.isCategories = true ∧ b.isCategories = true
    · obtain ⟨xs, h, ps, rfl⟩ := eq_categories_of_isCategories hboth.1
      obtain ⟨ys, k, qs, rfl⟩ := eq_categories_of_isCategories hboth.2
      exact .categories _ _ _
    · rw [merge_disjunctive hwellFormed hboth]
      exact .disjunction _ _ _ (forall_children_merge (disjunctHeritable_typed config) ha hb)

theorem typedValue_merge (hwellFormed : a.WellFormed) (ha : a.TypedValue config property)
    (hb : b.TypedValue config property) :
    (merge .disjunctive a b).TypedValue config property := by
  by_cases hboth : a.isCategories = true ∧ b.isCategories = true
  · obtain ⟨xs, h, ps, rfl⟩ := eq_categories_of_isCategories hboth.1
    obtain ⟨ys, k, qs, rfl⟩ := eq_categories_of_isCategories hboth.2
    cases ha with
    | condition hpage _ => exact .condition hpage (.categories _ _ _)
  · rw [merge_disjunctive hwellFormed hboth]
    exact .disjunction _ _ _
      (forall_children_merge (disjunctHeritable_typedValue config property) ha hb)

end Mode

namespace Reader

-- ================================================================== chains

/-- All properties of a chain but the last have pages as values, and the type
of the chain is that of the last one. -/
structure Chain.Typed (config : Config) (c : Chain) : Prop where
  outer : ∀ property ∈ c.outer, config.valueType property = .page
  last : c.valueType = config.valueType c.last

theorem typed_chainFrom {config : Config} {names : List Text} {outer : List Property}
    {name : Text} {c : Chain} (houter : ∀ property ∈ outer, config.valueType property = .page)
    (h : chainFrom config outer name names = .ok c) : c.Typed config := by
  induction names generalizing outer name with
  | nil =>
    unfold chainFrom at h
    split at h
    · cases h
    · cases h
      exact ⟨houter, rfl⟩
  | cons following names ih =>
    unfold chainFrom at h
    split at h
    · cases h
    · next property _ =>
      split at h
      · next hpage =>
        exact ih (List.forall_mem_append.2 ⟨houter, List.forall_mem_singleton.2 hpage⟩) h
      · cases h

theorem typed_chain {config : Config} {name : Text} {c : Chain}
    (h : chain config name = .ok c) : c.Typed config := by
  have hnone : ∀ property ∈ ([] : List Property), config.valueType property = .page :=
    fun _ h => nomatch h
  unfold chain at h
  split at h
  · exact typed_chainFrom hnone h
  · exact typed_chainFrom hnone h

/-- A chain of conditions on pages around one on the values of the last
property. -/
theorem typed_describe {config : Config} {c : Chain} {inner : Description}
    (hc : c.Typed config) (hinner : inner.TypedValue config c.last) :
    (c.describe inner).Typed config := by
  unfold Chain.describe
  rw [List.foldr_append]
  have hall (properties : List Property)
      (hpages : ∀ property ∈ properties, config.valueType property = .page) :
      (properties.foldr (fun property inner => someProperty property inner [])
        (someProperty c.last inner [])).Typed config := by
    induction properties with
    | nil => exact .someProperty c.last [] hinner
    | cons property rest ih =>
      obtain ⟨hpage, hrest⟩ := List.forall_mem_cons.1 hpages
      exact .someProperty property [] (.condition hpage (ih hrest))
  exact hall c.outer hc.outer

-- ================================================================= reading

theorem valueType_of_item? {config : Config} {valueType : ValueType} {t : Text} {item : Item}
    (h : item? config valueType t = some item) : item.valueType = valueType := by
  cases valueType with
  | page =>
    obtain ⟨page, -, rfl⟩ := Option.map_eq_some_iff.1 h
    rfl
  | number =>
    obtain ⟨number, -, rfl⟩ := Option.map_eq_some_iff.1 h
    rfl
  | text =>
    unfold item? at h
    dsimp only at h
    split at h
    · cases h
    · cases h
      rfl

theorem typedValue_value (config : Config) (property : Property) (t : Text) :
    (value config property (config.valueType property) t).1.TypedValue config property := by
  unfold value
  dsimp only
  split
  · next item hitem => exact .value _ _ (valueType_of_item? hitem)
  · exact .thing property []

theorem typed_restriction (config : Config) (ids : List NamespaceId) :
    (restriction config ids).Typed config := by
  unfold restriction
  split
  · exact .inNamespace _ _ _
  · refine .disjunction _ _ _ (forall_anyOf (disjunctHeritable_typed config) fun d hd => ?_)
    obtain ⟨id, -, rfl⟩ := List.mem_map.1 hd
    exact .inNamespace _ _ _

/-- Readers make typed conditions, and of every chain whose type is that of its
last property they make typed values. -/
theorem forms_typed {r : Reader} (hdefaults : Every (Typed r.config) r.defaults) :
    r.Forms (Typed r.config)
      (fun c d => c.valueType = r.config.valueType c.last → d.TypedValue r.config c.last) where
  defaults := hdefaults
  classMember kind t := by
    unfold Reader.classMember
    split
    · exact every_none
    · split
      · exact every_some.2 (.categories _ _ _)
      · exact every_some.2 (.concept _ _)
  articleMember t := by
    unfold Reader.articleMember
    split
    · intro d hd
      obtain ⟨id, -, rfl⟩ := Option.map_eq_some_iff.1 hd
      exact .inNamespace _ _ _
    · split
      · exact every_some.2 (.page _ _)
      · exact every_none
  merge mode _ _ hwellFormed _ := mode.typed_merge hwellFormed
  literal c t htype := by
    rw [htype]
    exact typedValue_value r.config c.last t
  thing c _ := .thing c.last []
  condition _ _ hpage hd htype := .condition (htype.symm.trans hpage) hd
  mergeValues _ _ _ hwellFormed _ ha hb htype :=
    Mode.typedValue_merge hwellFormed (ha htype) (hb htype)
  describe _ _ _ hchain hinner :=
    have hc := typed_chain hchain
    typed_describe hc (hinner hc.last)

end Reader

-- ============================================================ whole queries

namespace Description

/-- A comparison of the values of a property with an item of its type. -/
inductive IsComparisonOf (config : Config) (property : Property) : Description → Prop
  | value {item : Item} (comparator : Comparator) (ps : List PrintRequest) :
    item.valueType = config.valueType property →
    IsComparisonOf config property (.value item (some property) comparator ps)

/-- What can be asked of values that have no properties of their own: that there
be one, that it compare with an item, or that it do so with one of several. -/
inductive IsPlainOperandOf (config : Config) (property : Property) : Description → Prop
  | thing (ps : List PrintRequest) : IsPlainOperandOf config property (.thing ps)
  | comparison {d : Description} : IsComparisonOf config property d →
    IsPlainOperandOf config property d
  | always (children : List Description) (categoryIndex : Option Nat) (ps : List PrintRequest) :
    IsPlainOperandOf config property (.disjunction children categoryIndex true ps)
  | alternatives {children : List Description} (categoryIndex : Option Nat) (always : Bool)
      (ps : List PrintRequest) : (∀ child ∈ children, IsComparisonOf config property child) →
    IsPlainOperandOf config property (.disjunction children categoryIndex always ps)

/-- A node as it may stand at a place in the tree of a query, as far as types
go. -/
structure WellTyped (config : Config) (path : List Description) (node : Description) : Prop where
  plain : ∀ property inner ps, node = .someProperty property inner ps →
    config.valueType property ≠ .page → inner.IsPlainOperandOf config property
  /-- A comparison with a value of a property stands where the values of that
  property are described. -/
  value : ∀ item property comparator ps, node = .value item (some property) comparator ps →
    item.valueType = config.valueType property ∧ IsAlternativeOf property path
  page : ∀ item comparator ps, node = .value item none comparator ps →
    comparator = .equal ∧ ∃ page, item = .page page

variable {config : Config} {property : Property} {path : List Description}
  {d node root : Description}

theorem IsPlainOperandOf.of_typedValue (hplain : config.valueType property ≠ .page)
    (hwellFormed : d.WellFormed) (h : d.TypedValue config property) :
    d.IsPlainOperandOf config property := by
  cases h with
  | thing => exact .thing _
  | value comparator ps htype => exact .comparison (.value comparator ps htype)
  | condition hpage => exact absurd hpage hplain
  | disjunction categoryIndex always ps hchildren =>
    cases hwellFormed with
    | disjunction _ hdisjunct =>
      refine .alternatives categoryIndex always ps fun child hchild => ?_
      -- alternatives that hold of any value, or are disjunctions, are not kept as such
      cases hchildren child hchild with
      | thing => cases (hdisjunct _ hchild).notThing
      | disjunction => cases (hdisjunct _ hchild).notDisjunction
      | value comparator ps htype => exact .value comparator ps htype
      | condition hpage => exact absurd hpage hplain

/-- What is known of a node at a place: it is a condition on pages, or one on
values where those are described. No alternative for a value is a disjunction. -/
inductive TypedAt (config : Config) (path : List Description) (d : Description) : Prop
  | condition : d.Typed config → TypedAt config path d
  | operand (property : Property) : IsOperandOf property path → d.TypedValue config property →
    TypedAt config path d
  | alternative (property : Property) : IsAlternativeOf property path →
    d.isDisjunction = false → d.TypedValue config property → TypedAt config path d

/-- Only comparisons and disjunctions of them are conditions on values without
being conditions on pages. -/
theorem TypedAt.typed (h : d.TypedAt config path)
    (hkind : (d.isSomeProperty || d.isConjunction) = true) : d.Typed config := by
  cases h with
  | condition h => exact h
  | operand _ _ h | alternative _ _ _ h =>
    cases h with
    | condition _ h => exact h
    | _ => cases hkind

theorem typedAt_of_occursAt (hwellFormed : root.WellFormed) (hroot : root.Typed config)
    (h : OccursAt root path node) : node.WellFormed ∧ node.TypedAt config path := by
  induction h with
  | root => exact ⟨hwellFormed, .condition hroot⟩
  | @part path parent node _ hpart ih =>
    obtain ⟨hwellFormed, htyped⟩ := ih
    cases hwellFormed with
    | someProperty property ps hinner =>
      rw [List.mem_singleton.1 hpart]
      cases htyped.typed rfl with
      | someProperty _ _ hvalue => exact ⟨hinner, .operand property (.direct _ _ _) hvalue⟩
    | conjunction ps _ hchildren =>
      cases htyped.typed rfl with
      | conjunction _ htyped => exact ⟨hchildren node hpart, .condition (htyped node hpart)⟩
    | disjunction ps hdisjunct hchildren =>
      refine ⟨hchildren node hpart, ?_⟩
      cases htyped with
      | condition htyped =>
        exact .condition ((disjunctHeritable_typed config).children _ _ _ _ htyped node hpart)
      | operand property hplace htyped =>
        exact .alternative property (.disjunct _ _ _ _ hplace)
          (hdisjunct node hpart).notDisjunction
          ((disjunctHeritable_typedValue config property).children _ _ _ _ htyped node hpart)
      | alternative _ _ hnot => cases hnot
    | _ => cases hpart

end Description

namespace Reader

/-- **What is read is well-typed.** On any wiki and whatever the query says, a
property of numbers or texts is asked for any value at all, or its values are
compared with items of that type; a comparison with a value of a property stands
directly behind that property, or among the alternatives directly behind it, and
its item is of the property's type; and a comparison that names no property asks
for a page. -/
theorem read_wellTyped (config : Config) (query : Text) (path : List Description)
    (node : Description)
    (h : OccursAt (Query.read (ofConfig config) query).description path node) :
    node.WellTyped config path := by
  have hrestriction : ∀ d ∈ (ofConfig config).defaults, d.WellFormed ∧ d.Typed config := by
    intro d hd
    obtain ⟨ids, -, rfl⟩ := Option.map_eq_some_iff.1 hd
    exact ⟨wellFormed_restriction config ids, typed_restriction config ids⟩
  have hroot := (forms_typed (r := ofConfig config) fun d hd => (hrestriction d hd).2).read
    (fun d hd => (hrestriction d hd).1) query
  have htree : (Query.read (ofConfig config) query).description.WellFormed ∧
      (Query.read (ofConfig config) query).description.Typed config := by
    rcases hroot with heq | hroot
    · rw [show (Query.read (ofConfig config) query).description = .thing [] from heq]
      exact ⟨.thing [], .thing []⟩
    · exact hroot
  obtain ⟨hwellFormed, htyped⟩ := typedAt_of_occursAt htree.1 htree.2 h
  refine ⟨?_, ?_, ?_⟩
  · rintro property inner ps rfl hplain
    cases hwellFormed with
    | someProperty _ _ hinner =>
      cases htyped.typed rfl with
      | someProperty _ _ hvalue => exact .of_typedValue hplain hinner hvalue
  · rintro item property comparator ps rfl
    cases htyped with
    | condition htyped => cases htyped
    | operand _ hplace hvalue =>
      cases hvalue with
      | value _ _ htype => exact ⟨htype, .operand hplace⟩
      | condition _ htyped => cases htyped
    | alternative _ hplace _ hvalue =>
      cases hvalue with
      | value _ _ htype => exact ⟨htype, hplace⟩
      | condition _ htyped => cases htyped
  · rintro item comparator ps rfl
    cases htyped with
    | condition htyped =>
      cases htyped with
      | page page => exact ⟨rfl, page, rfl⟩
    | operand _ _ hvalue | alternative _ _ _ hvalue =>
      cases hvalue with
      | condition _ htyped =>
        cases htyped with
        | page page => exact ⟨rfl, page, rfl⟩

/-- A number that is to be three or not less than seven. -/
theorem read_wellTyped_number :
    let config : Config := { propertyTypes := [("Age".toList, .number)] }
    let query := "[[Age::3||>7]]".toList
    let age : Property := ⟨"Age".toList, false⟩
    let atLeast := Description.value (.number ⟨7, 0⟩) (some age) .greaterEqual []
    let alternatives :=
      Description.disjunction [.value (.number ⟨3, 0⟩) (some age) .equal [], atLeast] none false []
    let tree := Description.someProperty age alternatives []
    (Query.read (ofConfig config) query).description = tree ∧
      OccursAt (Query.read (ofConfig config) query).description [alternatives, tree] atLeast ∧
      atLeast.WellTyped config [alternatives, tree] := by
  intro config query age atLeast alternatives tree
  have hchain : chain config "Age".toList = .ok ⟨[], age, .number⟩ := rfl
  have hread : (Query.read (ofConfig config) query).description = tree := by
    unfold Query.read read
    rw [readSubquery_ne_nil (by decide +kernel), readAlternatives_openAtom (by decide +kernel),
      readAtom_property (by decide +kernel) (by decide +kernel) (by decide +kernel)
        (by decide +kernel),
      readProperty_ok hchain,
      readValues_more (by rw [readOneValue_literal (by decide +kernel)]; decide +kernel),
      readOneValue_literal (by decide +kernel),
      readValues_last (by rw [readOneValue_literal (by decide +kernel)]; decide +kernel),
      readOneValue_literal (by decide +kernel), readAlternatives_finish (by decide +kernel)]
    decide +kernel
  have hnode :
      OccursAt (Query.read (ofConfig config) query).description [alternatives, tree] atLeast := by
    rw [hread]
    exact .part (.part .root List.mem_cons_self) (List.mem_cons_of_mem _ List.mem_cons_self)
  exact ⟨hread, hnode, read_wellTyped config query _ _ hnode⟩

end Reader

end InlineQuery
