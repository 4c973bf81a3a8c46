/-
The names in a query that was read are spelled as the wiki spells them.

A reader normalizes every title and every label that it takes out of the text:
the members of a category list, a concept, a page with or without a namespace,
a page that is a value, and each property of a chain. Nothing that becomes of a
condition later changes a name, so whoever works on the tree can compare names
as they are (`read_spelled`).

# The invariant

`Spelled` says of a node that the names in it are normalized and that it prints
nothing. The second part is there because print requests name properties too;
containers take print requests from what they absorb, and so the conditions
that are absorbed are compared without them (`conjunctHeritable_spelled`,
`disjunctHeritable_spelled`). A value speaks of the last property of its chain.
What is known of values is hence known only for the chains that are read
(`forms_spelled`).
-/
import InlineQuery.Proofs.Description.Requests
import InlineQuery.Proofs.Titles.PropertyNames

namespace InlineQuery

/-- The name is spelled in the way that normalizing it would spell it. -/
def Normalized (capital : Bool) (name : Text) : Prop :=
  normalizeTitle? capital name = some name

/-- The title that a value names, if it is a page. -/
def Item.names : Item → List Text
  | .page p => [p.title]
  | _ => []

namespace Description

/-- The titles of pages and the labels of properties that a node names itself,
what is below it and what it prints apart. -/
def names : Description → List Text
  | .value item property _ _ => item.names ++ property.toList.map Property.label
  | .categories pages _ _ => pages.map Page.title
  | .concept page _ => [page.title]
  | .someProperty property _ _ => [property.label]
  | _ => []

/-- The node prints nothing, and every name in it is normalized. -/
structure Spelled (capital : Bool) (node : Description) : Prop where
  prints : node.prints = []
  names : ∀ name ∈ node.names, Normalized capital name

variable {capital : Bool} {d : Description}

-- ============================================================= containers

theorem withPrints_of_spelled (h : d.Throughout (Spelled capital)) : d.withPrints [] = d := by
  have hprints := withPrints_prints d
  rwa [(h d .root).prints] at hprints

/-- Where the print requests are left out, names stay spelled in a
conjunction. -/
theorem conjunctHeritable_spelled (capital : Bool) :
    ConjunctHeritable fun d => (d.withPrints []).Throughout (Spelled capital) where
  withPrints d requests h := by rwa [withPrints_withPrints]
  children children ps h child hchild := by
    have hspelled : child.Throughout (Spelled capital) :=
      h.of_mem_children (d := .conjunction children []) hchild
    rwa [withPrints_of_spelled hspelled]

/-- And they do in a disjunction, the pages of merged category lists
included. -/
theorem disjunctHeritable_spelled (capital : Bool) :
    DisjunctHeritable fun d => (d.withPrints []).Throughout (Spelled capital) where
  withPrints d requests h := by rwa [withPrints_withPrints]
  children children categoryIndex always ps h child hchild := by
    have hspelled : child.Throughout (Spelled capital) :=
      h.of_mem_children (d := .disjunction children categoryIndex always []) hchild
    rwa [withPrints_of_spelled hspelled]
  merge xs h ps ys k qs hxs hys := by
    have hboth : ∀ name ∈ (xs ++ ys).map Page.title, Normalized capital name := by
      rw [List.map_append]
      exact List.forall_mem_append.2 ⟨(hxs _ .root).names, (hys _ .root).names⟩
    exact (throughout_leaf rfl rfl).2 ⟨rfl, hboth⟩

theorem prints_eq_nil_of_spelled {children : List Description}
    (h : ∀ d ∈ children, d.Throughout (Spelled capital)) : children.flatMap prints = [] :=
  List.flatMap_eq_nil_iff.2 fun d hd => (h d hd d .root).prints

section builders

variable {children : List Description} (hwellFormed : ∀ d ∈ children, d.WellFormed)
  (h : ∀ d ∈ children, d.Throughout (Spelled capital))

include hwellFormed h

theorem spelled_allOf : (allOf children).Throughout (Spelled capital) := by
  have hprints := (prints_allOf children).trans (prints_eq_nil_of_spelled h)
  have hchildren := forall_allOf (conjunctHeritable_spelled capital) fun d hd => by
    rw [withPrints_of_spelled (h d hd)]
    exact h d hd
  have hbuilt := wellFormed_allOf hwellFormed
  unfold allOf Conjuncts.toDescription at hprints hchildren hbuilt ⊢
  cases hbuilt with
  | conjunction _ hconjunct _ =>
    refine throughout_conjunction.2 ⟨⟨hprints, fun _ hname => nomatch hname⟩, ?_⟩
    intro child hchild
    have hself := withPrints_prints child
    rw [(hconjunct child hchild).prints] at hself
    exact hself ▸ hchildren child hchild

theorem spelled_anyOf : (anyOf children).Throughout (Spelled capital) := by
  have hprints := (prints_anyOf hwellFormed).trans (prints_eq_nil_of_spelled h)
  have hchildren := forall_anyOf (disjunctHeritable_spelled capital) fun d hd => by
    rw [withPrints_of_spelled (h d hd)]
    exact h d hd
  have hbuilt := wellFormed_anyOf hwellFormed
  unfold anyOf Disjuncts.toDescription at hprints hchildren hbuilt ⊢
  cases hbuilt with
  | disjunction _ hdisjunct _ _ _ =>
    refine throughout_disjunction.2 ⟨⟨hprints, fun _ hname => nomatch hname⟩, ?_⟩
    intro child hchild
    have hself := withPrints_prints child
    rw [(hdisjunct child hchild).prints] at hself
    exact hself ▸ hchildren child hchild

end builders

/-- Two category lists become one longer list, anything else a container of
both. -/
theorem spelled_merge (mode : Mode) {a b : Description} (ha : a.WellFormed) (hb : b.WellFormed)
    (hsa : a.Throughout (Spelled capital)) (hsb : b.Throughout (Spelled capital)) :
    (mode.merge a b).Throughout (Spelled capital) := by
  have hwellFormed : ∀ d ∈ [a, b], d.WellFormed :=
    List.forall_mem_cons.2 ⟨ha, List.forall_mem_singleton.2 hb⟩
  have hspelled : ∀ d ∈ [a, b], d.Throughout (Spelled capital) :=
    List.forall_mem_cons.2 ⟨hsa, List.forall_mem_singleton.2 hsb⟩
  cases mode with
  | conjunctive =>
    rw [Mode.merge_conjunctive]
    exact spelled_allOf hwellFormed hspelled
  | disjunctive =>
    by_cases hboth : a.isCategories = true ∧ b.isCategories = true
    · obtain ⟨xs, h, ps, rfl⟩ := eq_categories_of_isCategories hboth.1
      obtain ⟨ys, k, qs, rfl⟩ := eq_categories_of_isCategories hboth.2
      have hps : ps = [] := (hsa _ .root).prints
      have hqs : qs = [] := (hsb _ .root).prints
      subst hps hqs
      rw [Mode.merge_categories]
      exact (disjunctHeritable_spelled capital).merge xs h [] ys k [] hsa hsb
    · rw [Mode.merge_disjunctive ha hboth]
      exact spelled_anyOf hwellFormed hspelled

end Description

open Description

-- ============================================================ pages, properties

theorem Property.normalized_of_read? {capital : Bool} {t : Text} {property : Property}
    (h : Property.read? capital t = some property) :
    Normalized capital property.label := by
  obtain ⟨name, hname, -⟩ := Property.read?_eq_some_iff.1 h
  exact normalizeTitle?_of_normalizeTitle? hname

namespace Reader

variable {config : Config}

theorem normalized_of_mainPage? {t : Text} {page : Page} (h : mainPage? config t = some page) :
    Normalized config.capitalLinks page.title := by
  obtain ⟨title, htitle, rfl⟩ := Option.map_eq_some_iff.1 h
  exact normalizeTitle?_of_normalizeTitle? htitle

/-- The title of a page is normalized behind the name of its namespace. -/
theorem normalized_of_page? {t : Text} {page : Page} (h : page? config t = some page) :
    Normalized config.capitalLinks page.title := by
  unfold page? at h
  dsimp only at h
  split at h
  · exact normalized_of_mainPage? h
  · split at h
    · exact normalized_of_mainPage? h
    · obtain ⟨title, htitle, rfl⟩ := Option.map_eq_some_iff.1 h
      exact normalizeTitle?_of_normalizeTitle? htitle

theorem normalized_of_item? {valueType : ValueType} {t : Text} {item : Item}
    (h : item? config valueType t = some item) :
    ∀ name ∈ item.names, Normalized config.capitalLinks name := by
  cases valueType with
  | page =>
    obtain ⟨page, hpage, rfl⟩ := Option.map_eq_some_iff.1 h
    exact List.forall_mem_singleton.2 (normalized_of_page? hpage)
  | number =>
    obtain ⟨number, -, rfl⟩ := Option.map_eq_some_iff.1 h
    exact fun _ hname => nomatch hname
  | text =>
    rw [item?] at h
    split at h
    · cases h
    · cases h
      exact fun _ hname => nomatch hname

-- ================================================================== chains

/-- The labels of all properties of a chain are normalized. -/
def Chain.Spelled (config : Config) (c : Chain) : Prop :=
  ∀ property ∈ c.outer ++ [c.last],
    Normalized config.capitalLinks property.label

theorem normalized_of_chainFrom {outer : List Property} {name : Text} {names : List Text}
    {c : Chain} (h : chainFrom config outer name names = .ok c)
    (houter : ∀ property ∈ outer,
      Normalized config.capitalLinks property.label) :
    c.Spelled config := by
  induction names generalizing outer name with
  | nil =>
    rw [chainFrom] at h
    split at h
    · cases h
    · next property hread =>
      cases h
      exact List.forall_mem_append.2 ⟨houter,
        List.forall_mem_singleton.2 (Property.normalized_of_read? hread)⟩
  | cons following names ih =>
    rw [chainFrom] at h
    split at h
    · cases h
    · next property hread =>
      split at h
      · exact ih h (List.forall_mem_append.2 ⟨houter,
          List.forall_mem_singleton.2 (Property.normalized_of_read? hread)⟩)
      · cases h

theorem normalized_of_chain {name : Text} {c : Chain} (h : chain config name = .ok c) :
    c.Spelled config := by
  unfold chain at h
  split at h <;> exact normalized_of_chainFrom h fun _ hproperty => nomatch hproperty

theorem spelled_describe {c : Chain} (hc : c.Spelled config) {inner : Description}
    (h : inner.Throughout (Spelled config.capitalLinks)) :
    (c.describe inner).Throughout (Spelled config.capitalLinks) := by
  unfold Chain.describe
  unfold Chain.Spelled at hc
  generalize c.outer ++ [c.last] = properties at hc
  induction properties with
  | nil => exact h
  | cons property rest ih =>
    obtain ⟨hproperty, hrest⟩ := List.forall_mem_cons.1 hc
    exact throughout_someProperty.2 ⟨⟨rfl, List.forall_mem_singleton.2 hproperty⟩, ih hrest⟩

-- ================================================================= reading

theorem spelled_namespaceOf (config : Config) (id : NamespaceId) (capital : Bool) :
    (namespaceOf config id).Throughout (Spelled capital) :=
  (throughout_leaf rfl rfl).2 ⟨rfl, fun _ hname => nomatch hname⟩

theorem spelled_restriction (config : Config) (ids : List NamespaceId) (capital : Bool) :
    (restriction config ids).Throughout (Spelled capital) := by
  have hnames : ∀ d ∈ ids.map (namespaceOf config),
      d.WellFormed ∧ d.Throughout (Spelled capital) := by
    intro d hd
    obtain ⟨id, -, rfl⟩ := List.mem_map.1 hd
    exact ⟨wellFormed_namespaceOf config id, spelled_namespaceOf config id capital⟩
  unfold restriction
  split
  · exact spelled_namespaceOf config _ capital
  · exact spelled_anyOf (fun d hd => (hnames d hd).1) fun d hd => (hnames d hd).2

/-- A reader spells the names in the conditions that it makes, and those in the
values of every chain that is spelled itself. -/
theorem forms_spelled {r : Reader}
    (hdefaults : Every (fun d => d.Throughout (Spelled r.config.capitalLinks)) r.defaults) :
    r.Forms (fun d => d.Throughout (Spelled r.config.capitalLinks))
      (fun c d => c.Spelled r.config → d.Throughout (Spelled r.config.capitalLinks)) where
  defaults := hdefaults
  classMember kind t := by
    unfold Reader.classMember
    split
    · exact every_none
    · next title htitle =>
      have hnames : ∀ name ∈ [title], Normalized r.config.capitalLinks name :=
        List.forall_mem_singleton.2 (normalizeTitle?_of_normalizeTitle? htitle)
      split
      · exact every_some.2 ((throughout_leaf rfl rfl).2 ⟨rfl, hnames⟩)
      · exact every_some.2 ((throughout_leaf rfl rfl).2 ⟨rfl, hnames⟩)
  articleMember t := by
    unfold Reader.articleMember
    split
    · intro d hd
      obtain ⟨id, -, rfl⟩ := Option.map_eq_some_iff.1 hd
      exact spelled_namespaceOf r.config id r.config.capitalLinks
    · split
      · next page hpage =>
        have hnames : ∀ name ∈ [page.title], Normalized r.config.capitalLinks name :=
          List.forall_mem_singleton.2 (normalized_of_page? hpage)
        exact every_some.2 ((throughout_leaf rfl rfl).2 ⟨rfl, hnames⟩)
      · exact every_none
  merge mode _ _ := spelled_merge mode
  literal c t hc := by
    unfold Reader.value
    dsimp only
    split
    · next item hitem =>
      have hlast : ∀ name ∈ [c.last.label], Normalized r.config.capitalLinks name :=
        List.forall_mem_singleton.2 (hc c.last (List.mem_append_right _ List.mem_cons_self))
      exact (throughout_leaf rfl rfl).2
        ⟨rfl, List.forall_mem_append.2 ⟨normalized_of_item? hitem, hlast⟩⟩
    · exact (throughout_leaf rfl rfl).2 ⟨rfl, fun _ hname => nomatch hname⟩
  thing _ _ := (throughout_leaf rfl rfl).2 ⟨rfl, fun _ hname => nomatch hname⟩
  condition _ _ _ hd _ := hd
  mergeValues _ _ _ ha hb hsa hsb hc := spelled_merge .disjunctive ha hb (hsa hc) (hsb hc)
  describe _ _ _ hchain hinner :=
    spelled_describe (normalized_of_chain hchain) (hinner (normalized_of_chain hchain))

/-- **Every name in a query that was read is canonical.** On any wiki, whatever
the query says, each title and each label in the tree is what the wiki makes of
it when it is normalized again, and no node prints anything. For whatever text
is normalized to is a title in its canonical spelling, with a capital letter in
front or without: it is not empty, has no character of the link syntax, no
underscore and no blanks but single spaces inside of it, and normalizing it a
second time changes nothing. -/
theorem read_spelled :
    (∀ (config : Config) (query : Text) (node : Description),
      node.OccursIn (Query.read (ofConfig config) query).description →
      node.prints = [] ∧
        ∀ name ∈ node.names, normalizeTitle? config.capitalLinks name = some name) ∧
    ∀ (capital : Bool) (t s : Text), normalizeTitle? capital t = some s →
      IsTitle s ∧ normalizeTitle? capital s = some s := by
  refine ⟨fun config query node hnode => ?_, fun capital t s h =>
    ⟨isTitle_of_normalizeTitle? h, normalizeTitle?_of_normalizeTitle? h⟩⟩
  have hdefaults : ∀ d ∈ (ofConfig config).defaults,
      d.WellFormed ∧ d.Throughout (Spelled config.capitalLinks) := by
    intro d hd
    obtain ⟨ids, -, rfl⟩ := Option.map_eq_some_iff.1 hd
    exact ⟨wellFormed_restriction config ids, spelled_restriction config ids _⟩
  have hforms := forms_spelled (r := ofConfig config) fun d hd => (hdefaults d hd).2
  have hspelled :
      (Query.read (ofConfig config) query).description.Throughout
        (Spelled config.capitalLinks) := by
    rcases hforms.read (fun d hd => (hdefaults d hd).1) query with hthing | ⟨-, hcondition⟩
    · show ((ofConfig config).read query).description.Throughout _
      rw [hthing]
      exact (throughout_leaf rfl rfl).2 ⟨rfl, fun _ hname => nomatch hname⟩
    · exact hcondition
  exact ⟨(hspelled node hnode).prints, (hspelled node hnode).names⟩

/-- A property that begins with a letter of which the upper case is two letters,
and that is written with several blanks and underscores. -/
theorem read_spelled_sharp_s :
    let config : Config := {}
    let query := "[[ ß_ km::+]]".toList
    let node := Description.someProperty ⟨"SS km".toList, false⟩ (.thing []) []
    let tree := (Query.read (ofConfig config) query).description
    (node.OccursIn tree ∧ normalizeTitle? true "ß_ km".toList = some "SS km".toList) ∧
      tree = node ∧ node.names = ["SS km".toList] ∧
      (node.prints = [] ∧
        ∀ name ∈ node.names, normalizeTitle? config.capitalLinks name = some name) ∧
      IsTitle "SS km".toList ∧ normalizeTitle? true "SS km".toList = some "SS km".toList := by
  intro config query node tree
  have hchain : chain config " ß_ km".toList = .ok ⟨[], ⟨"SS km".toList, false⟩, .page⟩ := rfl
  have htree : tree = node := by
    unfold tree Query.read read
    rw [readSubquery_ne_nil (by decide +kernel), readAlternatives_openAtom (by decide +kernel),
      readAtom_property (by decide +kernel) (by decide +kernel) (by decide +kernel)
        (by decide +kernel),
      readProperty_ok hchain,
      readValues_last (by rw [readOneValue_wildcard (by decide +kernel)]; decide +kernel),
      readOneValue_wildcard (by decide +kernel), readAlternatives_finish (by decide +kernel)]
    decide +kernel
  have hnode : node.OccursIn tree := htree ▸ .root
  have htitle : normalizeTitle? true "ß_ km".toList = some "SS km".toList := rfl
  exact ⟨⟨hnode, htitle⟩, htree, rfl, read_spelled.1 config query node hnode,
    read_spelled.2 true _ _ htitle⟩

end Reader

end InlineQuery
