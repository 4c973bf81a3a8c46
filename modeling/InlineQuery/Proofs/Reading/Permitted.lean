/-
Nothing that is switched off gets into a query.

`combine` looks at the root of what comes in and at the container that would
hold it, and at nothing else; yet features arise deep inside a tree, from
chains, merged category lists and containers that are extended in place.

# The invariant

Every condition that a reader has accepted is `Permitted`: all of its
features are. A condition on its way to `combine` is `Admissible`: it is
permitted once the feature of its own root is. `combine` turns the second
into the first (`combine_permitted`): it refuses a root that is not
permitted, and it creates a container, or a category list of several
categories, only under the feature that this takes. Everything that a reader
hands on is admissible because its parts went through `combine` before.

The namespace feature is not enforced. Default namespaces are put into the
tree without being asked about, which is harmless as long as they are a
single namespace; several would be a disjunction.
-/
import InlineQuery.Proofs.Reading.Conditions
import InlineQuery.Query

namespace InlineQuery

namespace Description

variable {permitted : FeatureSet}

-- ================================================ permitted, node by node

/-- All features of the tree are permitted; the namespace feature does not
count. -/
def Permitted (permitted : FeatureSet) (d : Description) : Prop :=
  ∀ feature, feature ≠ .namespaces → d.features.has feature = true →
    permitted.has feature = true

/-- The tree is permitted provided that the feature of its root is. -/
def Admissible (permitted : FeatureSet) (d : Description) : Prop :=
  (∀ feature, d.requiredFeature? = some feature → permitted.has feature = true) →
    d.Permitted permitted

theorem permitted_thing (ps : List PrintRequest) : (thing ps).Permitted permitted := by
  intro feature _ h
  simp [features] at h

theorem permitted_value (item : Item) (property : Option Property) (comparator : Comparator)
    (ps : List PrintRequest) : (value item property comparator ps).Permitted permitted := by
  intro feature _ h
  simp [features] at h

theorem permitted_inNamespace (id : NamespaceId) (label : Text) (ps : List PrintRequest) :
    (inNamespace id label ps).Permitted permitted := by
  intro feature hne h
  rw [features, FeatureSet.has_only, beq_iff_eq] at h
  exact absurd h.symm hne

/-- A list of several categories is a disjunction of them. -/
theorem permitted_categories {pages : List Page} {hierarchy : Bool} {ps : List PrintRequest} :
    (categories pages hierarchy ps).Permitted permitted ↔
      permitted.has .category = true ∧
        (1 < pages.length → permitted.has .disjunction = true) := by
  unfold Permitted
  rw [features]
  split
  · next hlong =>
    simp only [FeatureSet.has_union, FeatureSet.has_only, Bool.or_eq_true, beq_iff_eq]
    constructor
    · intro h
      exact ⟨h _ (by decide) (.inl rfl), fun _ => h _ (by decide) (.inr rfl)⟩
    · rintro ⟨hcategory, hdisjunction⟩ feature - (rfl | rfl)
      · exact hcategory
      · exact hdisjunction hlong
  · next hshort =>
    simp only [FeatureSet.has_only, beq_iff_eq]
    constructor
    · intro h
      exact ⟨h _ (by decide) rfl, fun hlong => absurd hlong hshort⟩
    · rintro ⟨hcategory, -⟩ feature - rfl
      exact hcategory

theorem permitted_concept {page : Page} {ps : List PrintRequest} :
    (concept page ps).Permitted permitted ↔ permitted.has .concept = true := by
  unfold Permitted
  simp only [features, FeatureSet.has_only, beq_iff_eq]
  constructor
  · intro h
    exact h _ (by decide) rfl
  · rintro hconcept feature - rfl
    exact hconcept

theorem permitted_someProperty {property : Property} {inner : Description}
    {ps : List PrintRequest} :
    (someProperty property inner ps).Permitted permitted ↔
      permitted.has .property = true ∧ inner.Permitted permitted := by
  unfold Permitted
  simp only [features, FeatureSet.has_union, FeatureSet.has_only, Bool.or_eq_true, beq_iff_eq]
  constructor
  · intro h
    exact ⟨h _ (by decide) (.inl rfl), fun feature hne hinner => h feature hne (.inr hinner)⟩
  · rintro ⟨hproperty, hinner⟩ feature hne (rfl | h)
    · exact hproperty
    · exact hinner feature hne h

/-- A container is permitted if its kind is and all of its children are. -/
theorem permitted_container {d : Description} {kind : Feature} {children : List Description}
    (hkind : kind ≠ .namespaces)
    (hfeatures : d.features = (FeatureSet.only kind).union (featuresAll children)) :
    d.Permitted permitted ↔
      permitted.has kind = true ∧ ∀ child ∈ children, child.Permitted permitted := by
  unfold Permitted
  simp only [hfeatures, FeatureSet.has_union, FeatureSet.has_only, has_featuresAll,
    Bool.or_eq_true, beq_iff_eq, List.any_eq_true]
  constructor
  · intro h
    exact ⟨h kind hkind (.inl rfl), fun child hchild feature hne hfeature =>
      h feature hne (.inr ⟨child, hchild, hfeature⟩)⟩
  · rintro ⟨hkind, hchildren⟩ feature hne (rfl | ⟨child, hchild, hfeature⟩)
    · exact hkind
    · exact hchildren child hchild feature hne hfeature

theorem permitted_conjunction {children : List Description} {ps : List PrintRequest} :
    (conjunction children ps).Permitted permitted ↔
      permitted.has .conjunction = true ∧ ∀ child ∈ children, child.Permitted permitted :=
  permitted_container (by decide) rfl

theorem permitted_disjunction {children : List Description} {categoryIndex : Option Nat}
    {always : Bool} {ps : List PrintRequest} :
    (disjunction children categoryIndex always ps).Permitted permitted ↔
      permitted.has .disjunction = true ∧ ∀ child ∈ children, child.Permitted permitted :=
  permitted_container (by decide) rfl

theorem permitted_withPrints {d : Description} (requests : List PrintRequest)
    (h : d.Permitted permitted) : (d.withPrints requests).Permitted permitted := by
  cases d <;> exact h

theorem conjunctHeritable_permitted : ConjunctHeritable (Permitted permitted) where
  withPrints _ requests h := permitted_withPrints requests h
  children _ _ h := (permitted_conjunction.1 h).2

/-- Where disjunctions are permitted, so are merged category lists. -/
theorem disjunctHeritable_permitted (hdisjunction : permitted.has .disjunction = true) :
    DisjunctHeritable (Permitted permitted) where
  withPrints _ requests h := permitted_withPrints requests h
  children _ _ _ _ h := (permitted_disjunction.1 h).2
  merge _ _ _ _ _ _ hxs _ :=
    permitted_categories.2 ⟨(permitted_categories.1 hxs).1, fun _ => hdisjunction⟩

theorem Admissible.of_permitted {d : Description} (h : d.Permitted permitted) :
    d.Admissible permitted := fun _ => h

end Description

open Description

-- ============================================================ combinations

/-- The condition, if there is one, is permitted. -/
def AllPermitted (permitted : FeatureSet) (result : Option Description) : Prop :=
  ∀ d ∈ result, d.Permitted permitted

theorem allPermitted_none (permitted : FeatureSet) : AllPermitted permitted none :=
  fun _ h => nomatch h

theorem allPermitted_some {permitted : FeatureSet} {d : Description} :
    AllPermitted permitted (some d) ↔ d.Permitted permitted := by
  simp [AllPermitted]

/-- `combine` is where features are enforced: it accepts an admissible
condition only if it is permitted, and holds it in a permitted container. -/
theorem combine_permitted {permitted : FeatureSet} (mode : Mode)
    {current incoming : Option Description} (hcurrent : AllPermitted permitted current)
    (hincoming : ∀ d ∈ incoming, d.Admissible permitted) :
    AllPermitted permitted (combine permitted mode current incoming).result := by
  have hcombination := combine_combination permitted mode current incoming
  generalize combine permitted mode current incoming = combined at hcombination
  cases hcombination with
  | nothing => exact hcurrent
  | refused => exact hcurrent
  | separate => exact hcurrent
  | first d h => exact allPermitted_some.2 (hincoming d rfl h)
  | extended existing d extended h hextended =>
    have hd := hincoming d rfl h
    have hexisting := allPermitted_some.1 hcurrent
    refine allPermitted_some.2 ?_
    obtain ⟨-, children, ps, rfl, rfl⟩ | ⟨-, children, i, always, ps, rfl, rfl⟩ :=
      Mode.extend?_cases hextended
    · obtain ⟨hconjunction, hchildren⟩ := permitted_conjunction.1 hexisting
      exact permitted_conjunction.2 ⟨hconjunction,
        Conjuncts.forall_insert conjunctHeritable_permitted hchildren hd⟩
    · obtain ⟨hdisjunction, hchildren⟩ := permitted_disjunction.1 hexisting
      exact permitted_disjunction.2 ⟨hdisjunction,
        Disjuncts.forall_insert (disjunctHeritable_permitted hdisjunction) hchildren hd⟩
  | joined existing d h hnone hmode =>
    have hd := hincoming d rfl h
    have hexisting := allPermitted_some.1 hcurrent
    have hboth : ∀ x ∈ [existing, d], x.Permitted permitted :=
      List.forall_mem_cons.2 ⟨hexisting, List.forall_mem_singleton.2 hd⟩
    refine allPermitted_some.2 ?_
    obtain ⟨rfl, hjoin⟩ | ⟨rfl, xs, i, ps, ys, k, qs, rfl, rfl, hjoin⟩ | ⟨rfl, -, hjoin⟩ :=
      Mode.join_cases mode existing d
    · rw [hjoin]
      exact permitted_conjunction.2 ⟨hmode, forall_allOf conjunctHeritable_permitted hboth⟩
    · rw [hjoin]
      exact permitted_categories.2 ⟨(permitted_categories.1 hexisting).1, fun _ => hmode⟩
    · rw [hjoin]
      exact permitted_disjunction.2
        ⟨hmode, forall_anyOf (disjunctHeritable_permitted hmode) hboth⟩

namespace Reader

variable {r : Reader}

-- =================================================================== atoms

theorem admissible_classMember (config : Config) (kind : ClassKind) (t : Text)
    (permitted : FeatureSet) : ∀ d ∈ (classMember config kind t).1, d.Admissible permitted := by
  intro d hd
  unfold classMember at hd
  split at hd
  · cases hd
  · split at hd
    · cases hd
      intro h
      exact permitted_categories.2 ⟨h _ rfl, fun hlong => absurd hlong (by simp)⟩
    · cases hd
      intro h
      exact permitted_concept.2 (h _ rfl)

theorem allPermitted_articleMember (config : Config) (t : Text) (permitted : FeatureSet) :
    AllPermitted permitted (articleMember config t).1 := by
  intro d hd
  unfold articleMember at hd
  split at hd
  · obtain ⟨id, -, rfl⟩ := Option.map_eq_some_iff.1 hd
    exact permitted_inNamespace _ _ _
  · split at hd
    · cases hd
      exact permitted_value _ _ _ _
    · cases hd

theorem permitted_value_fst (config : Config) (property : Property) (valueType : ValueType)
    (t : Text) (permitted : FeatureSet) :
    (value config property valueType t).1.Permitted permitted := by
  unfold value
  dsimp only
  split
  · exact permitted_value _ _ _ _
  · exact permitted_thing _

/-- A chain is a property condition around a property condition, and so on:
what is not permitted about it is at its root. -/
theorem admissible_describe (c : Chain) {inner : Description} {permitted : FeatureSet}
    (hinner : inner.Permitted permitted) : (c.describe inner).Admissible permitted := by
  have hall (properties : List Property) (hproperty : permitted.has .property = true) :
      (properties.foldr (fun property inner => someProperty property inner []) inner).Permitted
        permitted := by
    induction properties with
    | nil => exact hinner
    | cons property rest ih => exact permitted_someProperty.2 ⟨hproperty, ih⟩
  intro h
  refine hall _ (h .property ?_)
  cases houter : c.outer <;> simp [Chain.describe, houter, requiredFeature?]

/-- Readers accept what is permitted, and offer what is admissible. -/
theorem keeps_permitted (hdefaults : AllPermitted r.config.features r.defaults) :
    r.Keeps (Admissible r.config.features) (Permitted r.config.features) where
  offered _ := Admissible.of_permitted
  thing := permitted_thing []
  defaults := hdefaults
  classMember kind t := admissible_classMember r.config kind t _
  articleMember t d hd := .of_permitted (allPermitted_articleMember r.config t _ d hd)
  value _ _ _ := .of_permitted (permitted_value_fst _ _ _ _ _)
  describe _ c _ _ hinner := admissible_describe c hinner
  combine mode _ _ hcurrent hincoming := combine_permitted mode hcurrent hincoming

end Reader

-- ============================================== the nodes of a query's tree

namespace Description

/-- The features that a node uses by itself: that of its kind, and for a
list of several categories that of disjunctions too. -/
inductive Uses : Description → Feature → Prop
  | kind {d : Description} {feature : Feature} : d.requiredFeature? = some feature → Uses d feature
  | alternatives {pages : List Page} {hierarchy : Bool} {ps : List PrintRequest} :
    1 < pages.length → Uses (.categories pages hierarchy ps) .disjunction

theorem Permitted.of_occursIn {permitted : FeatureSet} {node d : Description}
    (hoccurs : node.OccursIn d) (h : d.Permitted permitted) : node.Permitted permitted := by
  induction hoccurs with
  | root => exact h
  | inner _ ih => exact ih (permitted_someProperty.1 h).2
  | conjunct hchild _ ih => exact ih ((permitted_conjunction.1 h).2 _ hchild)
  | disjunct hchild _ ih => exact ih ((permitted_disjunction.1 h).2 _ hchild)

theorem Permitted.has_of_uses {permitted : FeatureSet} {d : Description} {feature : Feature}
    (h : d.Permitted permitted) (huses : d.Uses feature) : permitted.has feature = true := by
  cases huses with
  | alternatives hlong => exact (permitted_categories.1 h).2 hlong
  | kind hrequired =>
    cases d with
    | categories => cases hrequired; exact (permitted_categories.1 h).1
    | concept => cases hrequired; exact permitted_concept.1 h
    | someProperty => cases hrequired; exact (permitted_someProperty.1 h).1
    | conjunction => cases hrequired; exact (permitted_conjunction.1 h).1
    | disjunction => cases hrequired; exact (permitted_disjunction.1 h).1
    | _ => cases hrequired

end Description

namespace Reader

/-- A restriction to no or one namespace uses none of the enforced
features. -/
theorem allPermitted_defaults {config : Config}
    (h : config.defaultNamespaces = none ∨ ∃ id, config.defaultNamespaces = some [id]) :
    AllPermitted config.features (ofConfig config).defaults := by
  obtain h | ⟨id, h⟩ := h
  · rw [ofConfig, h]
    exact allPermitted_none _
  · rw [ofConfig, h]
    exact allPermitted_some.2 (permitted_inNamespace _ _ _)

/-- Feature gating is complete for everything that is written in a query:
whatever the wiki permits and whatever the query says, the features of the
tree, the namespace feature apart, are permitted ones; so no node anywhere
in the tree uses one that is switched off. -/
theorem read_uses_permitted_features (config : Config)
    (hdefaults : config.defaultNamespaces = none ∨ ∃ id, config.defaultNamespaces = some [id])
    (query : Text) :
    (∀ feature, feature ≠ .namespaces →
        (Query.read (ofConfig config) query).features.has feature = true →
        config.features.has feature = true) ∧
      ∀ node : Description, node.OccursIn ((ofConfig config).read query).description →
        ∀ feature, node.Uses feature → config.features.has feature = true := by
  have h := (keeps_permitted (allPermitted_defaults hdefaults)).read query
  exact ⟨h, fun node hoccurs feature huses => (h.of_occursIn hoccurs).has_of_uses huses⟩

/-- Categories in a list, inside a subquery, inside a chain, on a wiki
without disjunctions. -/
theorem read_uses_permitted_features_nested :
    let config : Config :=
      { features := { FeatureSet.all with disjunction := false }, defaultNamespaces := some [0] }
    let query := "[[Located in.Part of::<q>[[Category:City||Town]] OR [[Help:+]]</q>||Asia]]".toList
    config.defaultNamespaces = some [0] ∧
      ∀ node : Description, node.OccursIn ((ofConfig config).read query).description →
        ∀ feature, node.Uses feature → config.features.has feature = true :=
  ⟨rfl, (read_uses_permitted_features _ (.inr ⟨0, rfl⟩) _).2⟩

end Reader

end InlineQuery
