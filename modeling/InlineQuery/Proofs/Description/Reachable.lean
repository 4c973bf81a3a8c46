/-
Every tree that the operations can make is well-formed.

# The operations

`Reachable` closes the elementary conditions under everything that makes
trees out of trees: the builders of containers, insertion, merging of
category lists, new print requests, taking a tree apart, combining, reading
and pruning, on any wiki and in any session. Each constructor is one
operation, so that a derivation is a history of operations, in any order and
of any length.

# The invariant

Each operation keeps `WellFormed`. For the builders and for pruning that is
the theory of `Proofs.Description.WellFormed` and `Proofs.Prune.WellFormed`;
here are the remaining two. A combination extends a container, merges two
lists or builds a container of two (`wellFormed_combine`). A reader makes
elementary conditions and combines them (`keeps_wellFormed`).
-/
import InlineQuery.Proofs.Prune.WellFormed
import InlineQuery.Proofs.Reading.Conditions
import InlineQuery.Session

namespace InlineQuery

open Description

-- ============================================================ combinations

/-- Whatever is permitted, a combination of well-formed conditions is
well-formed. -/
theorem wellFormed_combine (permitted : FeatureSet) (mode : Mode)
    {current incoming : Option Description} (hcurrent : ∀ d ∈ current, d.WellFormed)
    (hincoming : ∀ d ∈ incoming, d.WellFormed) :
    ∀ d ∈ (combine permitted mode current incoming).result, d.WellFormed := by
  have hcombination := combine_combination permitted mode current incoming
  generalize combine permitted mode current incoming = combined at hcombination
  cases hcombination with
  | nothing => exact hcurrent
  | refused => exact hcurrent
  | separate => exact hcurrent
  | first => exact hincoming
  | extended existing d extended _ hextended =>
    rintro e ⟨⟩
    have hexisting := hcurrent existing rfl
    have hd := hincoming d rfl
    obtain ⟨-, children, ps, rfl, rfl⟩ | ⟨-, children, i, always, ps, rfl, rfl⟩ :=
      Mode.extend?_cases hextended
    · exact wellFormed_insert? hexisting hd rfl
    · exact wellFormed_insert? hexisting hd rfl
  | joined existing d =>
    rintro e ⟨⟩
    have hexisting := hcurrent existing rfl
    have hboth : ∀ x ∈ [existing, d], x.WellFormed :=
      List.forall_mem_cons.2 ⟨hexisting, List.forall_mem_singleton.2 (hincoming d rfl)⟩
    obtain ⟨-, hjoin⟩ | ⟨-, xs, i, ps, ys, k, qs, rfl, rfl, hjoin⟩ | ⟨-, -, hjoin⟩ :=
      Mode.join_cases mode existing d
    · rw [hjoin]
      exact wellFormed_allOf hboth
    · rw [hjoin]
      have hmerged : mergeCategories? (.categories xs i ps) (.categories ys k qs) =
        some (.categories (xs ++ ys) (i || k) (ps ++ qs)) := rfl
      exact wellFormed_mergeCategories? hexisting hmerged
    · rw [hjoin]
      exact wellFormed_anyOf hboth

-- ================================================================= reading

namespace Reader

theorem wellFormed_namespaceOf (config : Config) (id : NamespaceId) :
    (namespaceOf config id).WellFormed := .inNamespace _ _ _

theorem wellFormed_restriction (config : Config) (ids : List NamespaceId) :
    (restriction config ids).WellFormed := by
  unfold restriction
  split
  · exact wellFormed_namespaceOf config _
  · refine wellFormed_anyOf fun d hd => ?_
    obtain ⟨id, -, rfl⟩ := List.mem_map.1 hd
    exact wellFormed_namespaceOf config id

theorem wellFormed_classMember (config : Config) (kind : ClassKind) (t : Text) :
    Every WellFormed (classMember config kind t).1 := by
  unfold classMember
  split
  · exact every_none
  · split
    · exact every_some.2 (.categories _ _ (by simp))
    · exact every_some.2 (.concept _ _)

theorem wellFormed_articleMember (config : Config) (t : Text) :
    Every WellFormed (articleMember config t).1 := by
  intro d hd
  unfold articleMember at hd
  split at hd
  · obtain ⟨id, -, rfl⟩ := Option.map_eq_some_iff.1 hd
    exact wellFormed_namespaceOf config id
  · split at hd
    · cases hd
      exact .value _ _ _ _
    · cases hd

theorem wellFormed_value (config : Config) (property : Property) (valueType : ValueType)
    (t : Text) : (value config property valueType t).1.WellFormed := by
  unfold value
  dsimp only
  split
  · exact .value _ _ _ _
  · exact .thing _

theorem wellFormed_describe (c : Chain) {inner : Description} (hinner : inner.WellFormed) :
    (c.describe inner).WellFormed := by
  unfold Chain.describe
  induction c.outer ++ [c.last] with
  | nil => exact hinner
  | cons property rest ih => exact .someProperty property [] ih

/-- Under a well-formed restriction, whatever a reader makes is
well-formed. -/
theorem keeps_wellFormed {r : Reader} (hdefaults : Every WellFormed r.defaults) :
    r.Keeps WellFormed WellFormed where
  offered _ h := h
  thing := .thing []
  defaults := hdefaults
  classMember := wellFormed_classMember r.config
  articleMember := wellFormed_articleMember r.config
  value := wellFormed_value r.config
  describe _ c _ _ hinner := wellFormed_describe c hinner
  combine mode _ _ hcurrent hincoming :=
    wellFormed_combine r.config.features mode hcurrent hincoming

end Reader

-- ================================================================ sessions

namespace Session

/-- The sessions there can be: a new one on a wiki, and what its operations
make of a session. -/
inductive Obtainable : Session → Prop
  | ofConfig (config : Config) : Obtainable (.ofConfig config)
  | setDefaultNamespaces {s : Session} (ids : Option (List NamespaceId)) :
    Obtainable s → Obtainable (s.setDefaultNamespaces ids)
  | read {s : Session} (query : Text) : Obtainable s → Obtainable (s.read query).2
  | combine {s : Session} (mode : Mode) (current incoming : Option Description) :
    Obtainable s → Obtainable (s.combine mode current incoming).2

/-- Only restrictions to namespaces are ever set, on any wiki. -/
theorem Obtainable.wellFormed_defaults {s : Session} (h : s.Obtainable) :
    Reader.Every WellFormed s.reader.defaults := by
  have hrestriction (config : Config) (ids : Option (List NamespaceId)) :
      Reader.Every WellFormed (ids.map (Reader.restriction config)) := by
    intro d hd
    obtain ⟨ids, -, rfl⟩ := Option.map_eq_some_iff.1 hd
    exact Reader.wellFormed_restriction config ids
  induction h with
  | ofConfig config => exact hrestriction config config.defaultNamespaces
  | @setDefaultNamespaces s ids _ _ => exact hrestriction s.reader.config ids
  | read _ _ ih => exact ih
  | combine _ _ _ _ ih => exact ih

end Session

-- ========================================================== all operations

namespace Description

/-- The trees that the operations can make, one after the other. -/
inductive Reachable : Description → Prop
  | thing : Reachable (.thing [])
  | value (item : Item) (property : Option Property) (comparator : Comparator) :
    Reachable (.value item property comparator [])
  | ofCategories {hierarchy : Bool} {pages : List Page} {d : Description} :
    ofCategories? hierarchy pages = some d → Reachable d
  | inNamespace (id : NamespaceId) (label : Text) : Reachable (.inNamespace id label [])
  | concept (page : Page) : Reachable (.concept page [])
  | someProperty (property : Property) {inner : Description} :
    Reachable inner → Reachable (.someProperty property inner [])
  | allOf {children : List Description} : (∀ d ∈ children, Reachable d) → Reachable (allOf children)
  | anyOf {children : List Description} : (∀ d ∈ children, Reachable d) → Reachable (anyOf children)
  | insert {d child extended : Description} : Reachable d → Reachable child →
    d.insert? child = some extended → Reachable extended
  | merge {d other merged : Description} : Reachable d → Reachable other →
    d.mergeCategories? other = some merged → Reachable merged
  | withPrints {d : Description} (requests : List PrintRequest) :
    Reachable d → Reachable (d.withPrints requests)
  | child {d child : Description} : Reachable d → child ∈ d.children → Reachable child
  | inner {property : Property} {inner : Description} {ps : List PrintRequest} :
    Reachable (.someProperty property inner ps) → Reachable inner
  | combine {s : Session} (mode : Mode) {current incoming : Option Description}
      {combined : Description} : s.Obtainable → (∀ d ∈ current, Reachable d) →
    (∀ d ∈ incoming, Reachable d) → (s.combine mode current incoming).1 = some combined →
    Reachable combined
  | read {s : Session} (query : Text) : s.Obtainable → Reachable (s.read query).1.description
  | prune {d : Description} (budget : Budget) : Reachable d →
    Reachable (prune budget d).description

/-- Whatever the operations make, in any order and number, is well-formed. -/
theorem wellFormed_of_reachable {d : Description} (h : Reachable d) : d.WellFormed := by
  induction h with
  | thing => exact .thing []
  | value item property comparator => exact .value item property comparator []
  | ofCategories h => exact wellFormed_ofCategories? h
  | inNamespace id label => exact .inNamespace id label []
  | concept page => exact .concept page []
  | someProperty property _ ih => exact .someProperty property [] ih
  | allOf _ ih => exact wellFormed_allOf ih
  | anyOf _ ih => exact wellFormed_anyOf ih
  | insert _ _ h ihd ihchild => exact wellFormed_insert? ihd ihchild h
  | merge _ _ h ihd _ => exact wellFormed_mergeCategories? ihd h
  | withPrints requests _ ih => exact wellFormed_withPrints requests ih
  | child _ hchild ih => exact ih.of_mem_children hchild
  | inner _ ih =>
    cases ih with
    | someProperty _ _ hinner => exact hinner
  | @combine s mode current incoming combined _ _ _ h ihcurrent ihincoming =>
    exact wellFormed_combine s.reader.config.features mode ihcurrent ihincoming combined h
  | read query hs => exact (Reader.keeps_wellFormed hs.wellFormed_defaults).read query
  | prune budget _ ih => exact wellFormed_prune ih budget

/-- Two category lists that a disjunction merges, put beside a third one that
pruning cuts. -/
theorem wellFormed_of_reachable_cut :
    let a := Page.category "A".toList
    let b := Page.category "B".toList
    let located := Description.someProperty ⟨"Located in".toList, false⟩ (.thing []) []
    let merged := anyOf [.categories [a] false [], located, .categories [b] false []]
    let d := (prune ⟨4, 1⟩ (.allOf [merged, .categories [b, a] false []])).description
    Reachable d ∧
      d = .conjunction
        [ .disjunction [.categories [a, b] false [], located] (some 0) false [],
          .categories [b] false [] ] [] ∧
      d.WellFormed := by
  intro a b located merged d
  have hlist (page : Page) (more : List Page) :
      Reachable (.categories (page :: more) false []) := by
    have h : ofCategories? false (page :: more) = some (.categories (page :: more) false []) := rfl
    exact .ofCategories h
  have hlocated : Reachable located := .someProperty _ .thing
  have hmerged : Reachable merged := by
    refine .anyOf fun d hd => ?_
    simp only [List.mem_cons, List.not_mem_nil, or_false] at hd
    rcases hd with rfl | rfl | rfl
    · exact hlist a []
    · exact hlocated
    · exact hlist b []
  have hd : Reachable d := by
    refine .prune _ (.allOf fun d hd => ?_)
    simp only [List.mem_cons, List.not_mem_nil, or_false] at hd
    rcases hd with rfl | rfl
    · exact hmerged
    · exact hlist b [a]
  exact ⟨hd, rfl, wellFormed_of_reachable hd⟩

end Description

end InlineQuery
