/-
The shape of what is read.

Conditions lose their parts on many ways: a condition that is always true does
not become a conjunct, a disjunction with one is cleared, category lists go to
a list that is there already. None of this leaves a container without purpose
in the tree of a query. Conjunctions have two conjuncts at least and
disjunctions two disjuncts, and that any page or any value will do is said at
the root or directly behind a property, nowhere else (`read_shaped`).

# The invariant

`Proper` are the conditions that atoms and subqueries make, `ProperValue` those
that a property may put on its values, which are the former and the two ways
to say that any value will do. What is true of any page never enters as a
condition on pages, so merging two proper conditions adds to the children of
both (`proper_merge`). The one case that does not is that of two category
lists, which become one list instead of a disjunction; and since a disjunction
has one list at most, one that is merged into another disjunction brings
something besides its list.

Values are merged in the same way until one of them is true of anything; from
then on all of them are (`properValue_merge`).
-/
import InlineQuery.Proofs.Description.Positions
import InlineQuery.Proofs.Reading.Forms
import InlineQuery.Query

namespace InlineQuery

namespace Description

-- ======================================================== proper conditions

mutual

/-- Conditions on pages without containers that do nothing, without print
requests, and with category lists that all treat the hierarchy alike. -/
inductive Proper (hierarchy : Bool) : Description → Prop
  | value (item : Item) (property : Option Property) (comparator : Comparator) :
    Proper hierarchy (.value item property comparator [])
  | categories (pages : List Page) : Proper hierarchy (.categories pages hierarchy [])
  | inNamespace (id : NamespaceId) (label : Text) : Proper hierarchy (.inNamespace id label [])
  | concept (page : Page) : Proper hierarchy (.concept page [])
  | someProperty (property : Property) {inner : Description} : ProperValue hierarchy inner →
    Proper hierarchy (.someProperty property inner [])
  | conjunction {children : List Description} : 2 ≤ children.length →
    (∀ child ∈ children, Proper hierarchy child) → Proper hierarchy (.conjunction children [])
  | disjunction {children : List Description} (categoryIndex : Option Nat) :
    2 ≤ children.length → (∀ child ∈ children, Proper hierarchy child) →
    Proper hierarchy (.disjunction children categoryIndex false [])

/-- Conditions on values: those on pages, and the two that hold of any value. -/
inductive ProperValue (hierarchy : Bool) : Description → Prop
  | thing : ProperValue hierarchy (.thing [])
  | always : ProperValue hierarchy (.disjunction [] none true [])
  | proper {d : Description} : Proper hierarchy d → ProperValue hierarchy d

end

variable {hierarchy : Bool} {d : Description}

theorem Proper.prints_eq (h : d.Proper hierarchy) : d.prints = [] := by
  cases h <;> rfl

theorem Proper.withPrints_eq (h : d.Proper hierarchy) : d.withPrints [] = d := by
  have hprints := withPrints_prints d
  rwa [h.prints_eq] at hprints

theorem Proper.isThing_eq (h : d.Proper hierarchy) : d.isThing = false := by
  cases h <;> rfl

theorem ProperValue.prints_eq (h : d.ProperValue hierarchy) : d.prints = [] := by
  cases h with
  | thing | always => rfl
  | proper h => exact h.prints_eq

theorem ProperValue.proper_of_isCategories (h : d.ProperValue hierarchy)
    (hcategories : d.isCategories = true) : d.Proper hierarchy := by
  cases h with
  | thing | always => cases hcategories
  | proper h => exact h

end Description

open Description

-- ============================================================ conjunctions

/-- What becomes of a proper condition in a conjunction: at least one more
conjunct. -/
theorem Conjuncts.insert_proper {hierarchy : Bool} {d : Description} (h : d.Proper hierarchy)
    (c : Conjuncts) :
    ∃ more, more ≠ [] ∧ (∀ x ∈ more, x.Proper hierarchy) ∧
      c.insert d = ⟨c.children ++ more, c.prints⟩ := by
  by_cases hconjunction : d.isConjunction = true
  · cases h with
    | @conjunction children hlength hchildren =>
      have hne : children ≠ [] := by
        rintro rfl
        cases hlength
      exact ⟨children, hne, hchildren, by rw [insert, List.append_nil]⟩
    | _ => cases hconjunction
  · refine ⟨[d], List.cons_ne_nil d [], List.forall_mem_singleton.2 h, ?_⟩
    rw [insert_eq_append h.isThing_eq (by simpa using hconjunction), h.withPrints_eq,
      h.prints_eq, List.append_nil]

-- ============================================================ disjunctions

namespace Disjuncts

/-- A disjunction under construction to which proper conditions only have been
added so far. -/
structure Proper (hierarchy : Bool) (d : Disjuncts) : Prop where
  always : d.always = false
  prints : d.prints = []
  children : ∀ x ∈ d.children, x.Proper hierarchy

variable {hierarchy : Bool} {d e : Disjuncts} {x : Description}

theorem proper_empty (hierarchy : Bool) : empty.Proper hierarchy :=
  ⟨rfl, rfl, fun _ h => nomatch h⟩

/-- The disjunction has grown from the other one: it has no fewer children, and
more of them if something else than categories was added. -/
structure Grows (hierarchy : Bool) (others : Prop) (d e : Disjuncts) : Prop where
  proper : e.Proper hierarchy
  length_le : d.children.length ≤ e.children.length
  length_lt : others → d.children.length < e.children.length

theorem grows_insertCategories (hd : d.Proper hierarchy) (pages : List Page) :
    Grows hierarchy False d (d.insertCategories pages hierarchy) := by
  obtain ⟨i, old, oldHierarchy, ps, -, hold, heq⟩ | heq :=
    d.insertCategories_cases pages hierarchy
  · rw [heq]
    have hproper := hd.children _ (List.mem_of_getElem? hold)
    cases hproper
    refine ⟨⟨hd.always, hd.prints, fun x hx => ?_⟩, by simp, False.elim⟩
    rcases List.mem_or_eq_of_mem_set hx with hx | rfl
    · exact hd.children x hx
    · rw [Bool.or_self]
      exact .categories _
  · rw [heq]
    exact ⟨⟨hd.always, hd.prints,
      List.forall_mem_append.2 ⟨hd.children, List.forall_mem_singleton.2 (.categories _)⟩⟩,
      by simp, False.elim⟩

/-- A proper condition that is no disjunction is added to the category list, or
becomes one more child. -/
theorem grows_insert_of_not_disjunction (hd : d.Proper hierarchy) (hx : x.Proper hierarchy)
    (hdisjunction : x.isDisjunction = false) :
    Grows hierarchy (x.isCategories = false) d (d.insert x) := by
  by_cases hcategories : x.isCategories = true
  · cases hx with
    | categories pages =>
      rw [insert_categories hd.always, addPrints_nil]
      obtain ⟨hproper, hle, -⟩ := grows_insertCategories hd pages
      exact ⟨hproper, hle, fun h => nomatch h⟩
    | _ => cases hcategories
  · have hinsert : d.insert x = { d with children := d.children ++ [x] } :=
      insert_isDisjunct_eq_append hd.always ⟨hx.isThing_eq, hdisjunction, hx.prints_eq⟩
        (by simpa using hcategories)
    rw [hinsert]
    exact ⟨⟨hd.always, hd.prints,
      List.forall_mem_append.2 ⟨hd.children, List.forall_mem_singleton.2 hx⟩⟩, by simp, by simp⟩

theorem grows_foldl_insert {xs : List Description} (hd : d.Proper hierarchy)
    (hxs : ∀ x ∈ xs, x.Proper hierarchy ∧ x.isDisjunction = false) :
    Grows hierarchy (∃ x ∈ xs, x.isCategories = false) d (xs.foldl insert d) := by
  induction xs generalizing d with
  | nil => exact ⟨hd, Nat.le_refl _, fun ⟨_, h, _⟩ => nomatch h⟩
  | cons x rest ih =>
    obtain ⟨hx, hrest⟩ := List.forall_mem_cons.1 hxs
    have hfirst := grows_insert_of_not_disjunction hd hx.1 hx.2
    have hothers := ih hfirst.proper hrest
    refine ⟨hothers.proper, Nat.le_trans hfirst.length_le hothers.length_le, ?_⟩
    rintro ⟨y, hy, hcategories⟩
    rcases List.mem_cons.1 hy with rfl | hy
    · exact Nat.lt_of_lt_of_le (hfirst.length_lt hcategories) hothers.length_le
    · exact Nat.lt_of_le_of_lt hfirst.length_le (hothers.length_lt ⟨y, hy, hcategories⟩)

/-- Among two children there is one that is no category list. -/
theorem WellFormed.exists_not_isCategories (hd : d.WellFormed) (h : 2 ≤ d.children.length) :
    ∃ x ∈ d.children, x.isCategories = false := by
  refine Classical.byContradiction fun hnone => ?_
  have hall : ∀ x ∈ d.children, x.isCategories = true := by
    intro x hx
    cases hcategories : x.isCategories with
    | true => rfl
    | false => exact absurd ⟨x, hx, hcategories⟩ hnone
  have hcount := hd.countP_isCategories_le
  rw [List.countP_eq_length.2 hall] at hcount
  omega

/-- One more proper condition, which may be a disjunction itself. -/
theorem grows_insert (hwellFormed : d.WellFormed) (hd : d.Proper hierarchy) (hx : x.WellFormed)
    (hproper : x.Proper hierarchy) :
    Grows hierarchy (x.isCategories = false) d (d.insert x) := by
  by_cases hdisjunction : x.isDisjunction = true
  · cases hproper with
    | @disjunction children categoryIndex hlength hchildren =>
      have he : (Disjuncts.mk children categoryIndex false []).WellFormed :=
        wellFormed_toDescription.1 hx
      have hinsert : d.insert (.disjunction children categoryIndex false []) =
          children.foldl insert d := by
        refine (hwellFormed.insert_toDescription he).trans ?_
        rw [if_neg Bool.false_ne_true, addPrints_nil]
      rw [hinsert]
      obtain ⟨hproper, hle, hlt⟩ := grows_foldl_insert hd fun x hx =>
        ⟨hchildren x hx, (he.disjunct x hx).notDisjunction⟩
      exact ⟨hproper, hle, fun _ => hlt (he.exists_not_isCategories hlength)⟩
    | _ => cases hdisjunction
  · exact grows_insert_of_not_disjunction hd hproper (by simpa using hdisjunction)

/-- A category list is added to what is not one, or finds two children there. -/
theorem two_le_length_insert_categories {a : Description} (ha : a.WellFormed)
    (hproper : a.Proper hierarchy) (hcategories : a.isCategories = false) (pages : List Page) :
    2 ≤ ((empty.insert a).insert (.categories pages hierarchy [])).children.length := by
  by_cases hdisjunction : a.isDisjunction = true
  · have hfirst := grows_insert wellFormed_empty (proper_empty hierarchy) ha hproper
    rw [insert_categories hfirst.proper.always, addPrints_nil]
    refine Nat.le_trans ?_ (grows_insertCategories hfirst.proper pages).length_le
    cases hproper with
    | @disjunction children categoryIndex hlength hchildren =>
      have he : (Disjuncts.mk children categoryIndex false []).WellFormed :=
        wellFormed_toDescription.1 ha
      have hsame : empty.insert (.disjunction children categoryIndex false []) = _ :=
        he.empty_insert_toDescription
      rw [hsame]
      exact hlength
    | _ => cases hdisjunction
  · have hsingle : empty.insert a = ⟨[a], none, false, []⟩ :=
      insert_isDisjunct_eq_append rfl
        ⟨hproper.isThing_eq, by simpa using hdisjunction, hproper.prints_eq⟩ hcategories
    rw [hsingle, insert_categories rfl, insertCategories_of_none rfl]
    exact Nat.le_refl 2

/-- Two proper conditions that are not both category lists make a disjunction of
two children at least. -/
theorem two_le_length_insert {a b : Description} (ha : a.WellFormed) (hb : b.WellFormed)
    (hpa : a.Proper hierarchy) (hpb : b.Proper hierarchy)
    (hnot : ¬ (a.isCategories = true ∧ b.isCategories = true)) :
    2 ≤ ((empty.insert a).insert b).children.length := by
  have hfirst := grows_insert wellFormed_empty (proper_empty hierarchy) ha hpa
  have hsecond := grows_insert (wellFormed_empty.insert ha) hfirst.proper hb hpb
  cases hcategories : b.isCategories with
  | true =>
    have hother : a.isCategories = false := by
      cases h : a.isCategories with
      | true => exact absurd ⟨h, hcategories⟩ hnot
      | false => rfl
    cases hpb with
    | categories pages => exact two_le_length_insert_categories ha hpa hother pages
    | _ => cases hcategories
  | false =>
    have hone : 1 ≤ (empty.insert a).children.length := by
      cases hcategories : a.isCategories with
      | true =>
        obtain ⟨pages, _, _, rfl⟩ := eq_categories_of_isCategories hcategories
        exact Nat.le_refl 1
      | false => exact hfirst.length_lt hcategories
    exact Nat.lt_of_le_of_lt hone (hsecond.length_lt hcategories)

/-- A condition on values that is no proper condition on pages makes a
disjunction true. -/
theorem insert_of_not_proper (hd : d.WellFormed) (hx : x.ProperValue hierarchy)
    (hnot : ¬ x.Proper hierarchy) : d.insert x = d.makeTrue := by
  cases hx with
  | thing => rw [hd.insert_thing, addPrints_nil]
  | always =>
    have halways : (Disjuncts.mk [] none true []).WellFormed := wellFormed_makeTrue empty
    refine (hd.insert_toDescription halways).trans ?_
    rw [if_pos rfl, addPrints_nil]
  | proper h => exact absurd h hnot

end Disjuncts

-- ============================================================ combinations

namespace Mode

variable {hierarchy : Bool} {a b : Description}

theorem proper_merge (mode : Mode) (ha : a.WellFormed) (hb : b.WellFormed)
    (hpa : a.Proper hierarchy) (hpb : b.Proper hierarchy) : (mode.merge a b).Proper hierarchy := by
  cases mode with
  | conjunctive =>
    obtain ⟨xs, hxs, hpxs, hfirst⟩ := Conjuncts.insert_proper hpa .empty
    obtain ⟨ys, hys, hpys, hsecond⟩ := Conjuncts.insert_proper hpb (Conjuncts.empty.insert a)
    rw [merge_conjunctive, hsecond, hfirst]
    refine .conjunction ?_ (List.forall_mem_append.2 ⟨hpxs, hpys⟩)
    have hlenx := List.length_pos_iff.2 hxs
    have hleny := List.length_pos_iff.2 hys
    rw [List.length_append]
    show 2 ≤ xs.length + ys.length
    omega
  | disjunctive =>
    by_cases hboth : a.isCategories = true ∧ b.isCategories = true
    · cases hpa with
      | categories xs =>
        cases hpb with
        | categories ys =>
          rw [merge_categories, Bool.or_self]
          exact .categories (xs ++ ys)
        | _ => cases hboth.2
      | _ => cases hboth.1
    · rw [merge_disjunctive ha hboth]
      have hlength := Disjuncts.two_le_length_insert ha hb hpa hpb hboth
      have hfirst := Disjuncts.grows_insert Disjuncts.wellFormed_empty
        (Disjuncts.proper_empty hierarchy) ha hpa
      obtain ⟨⟨halways, hprints, hchildren⟩, -, -⟩ := Disjuncts.grows_insert
        (Disjuncts.wellFormed_empty.insert ha) hfirst.proper hb hpb
      unfold Disjuncts.toDescription
      rw [halways, hprints]
      exact .disjunction _ hlength hchildren

/-- Once a value may be anything, no alternative to it matters. -/
theorem properValue_merge (ha : a.WellFormed) (hb : b.WellFormed)
    (hpa : a.ProperValue hierarchy) (hpb : b.ProperValue hierarchy) :
    (merge .disjunctive a b).ProperValue hierarchy := by
  by_cases hproper : a.Proper hierarchy ∧ b.Proper hierarchy
  · exact .proper (proper_merge .disjunctive ha hb hproper.1 hproper.2)
  have hnot : ¬ (a.isCategories = true ∧ b.isCategories = true) := fun ⟨hca, hcb⟩ =>
    hproper ⟨hpa.proper_of_isCategories hca, hpb.proper_of_isCategories hcb⟩
  have hempty := Disjuncts.wellFormed_empty
  rw [merge_disjunctive ha hnot]
  by_cases hproperA : a.Proper hierarchy
  · have hfirst := Disjuncts.grows_insert hempty (Disjuncts.proper_empty hierarchy) ha hproperA
    rw [Disjuncts.insert_of_not_proper (hempty.insert ha) hpb fun h => hproper ⟨hproperA, h⟩]
    unfold Disjuncts.makeTrue
    rw [hfirst.proper.prints]
    exact .always
  · rw [Disjuncts.insert_of_not_proper hempty hpa hproperA, Disjuncts.insert_of_always rfl,
      hpb.prints_eq]
    exact .always

end Mode

-- ================================================================= reading

namespace Reader

theorem proper_restriction (config : Config) {ids : List NamespaceId} (hne : ids ≠ [])
    (hierarchy : Bool) : (restriction config ids).Proper hierarchy := by
  unfold restriction
  split
  · exact .inNamespace _ _
  · next hmany =>
    have hnames : ∀ d ∈ ids.map (namespaceOf config), IsDisjunct d ∧ d.isCategories = false := by
      intro d hd
      obtain ⟨id, -, rfl⟩ := List.mem_map.1 hd
      exact ⟨⟨rfl, rfl, rfl⟩, rfl⟩
    have hcount : (ids.map (namespaceOf config)).countP isCategories = 0 :=
      List.countP_eq_zero.2 fun d hd => by simp [(hnames d hd).2]
    have hbuilt : (ids.map (namespaceOf config)).foldl Disjuncts.insert (.ofChildren []) =
        .ofChildren (ids.map (namespaceOf config)) :=
      Disjuncts.foldl_insert_isDisjunct [] (fun d hd => (hnames d hd).1)
        (by rw [List.nil_append, hcount]; exact Nat.zero_le 1)
    have hlength : 2 ≤ (ids.map (namespaceOf config)).length := by
      rw [List.length_map]
      match ids with
      | [] => exact absurd rfl hne
      | [id] => exact absurd rfl (hmany id)
      | _ :: _ :: rest => exact Nat.le_add_left 2 rest.length
    have hproper : ∀ d ∈ ids.map (namespaceOf config), d.Proper hierarchy := by
      intro d hd
      obtain ⟨id, -, rfl⟩ := List.mem_map.1 hd
      exact .inNamespace _ _
    rw [anyOf, show Disjuncts.empty = .ofChildren [] from rfl, hbuilt]
    exact .disjunction _ hlength hproper

theorem proper_describe (c : Chain) {hierarchy : Bool} {inner : Description}
    (h : inner.ProperValue hierarchy) : (c.describe inner).Proper hierarchy := by
  unfold Chain.describe
  rw [List.foldr_append]
  induction c.outer with
  | nil => exact .someProperty c.last h
  | cons property rest ih => exact .someProperty property (.proper ih)

/-- Under a proper restriction, readers make proper conditions and values. -/
theorem forms_proper {r : Reader} (hdefaults : Every (Proper r.config.expandsHierarchy) r.defaults) :
    r.Forms (Proper r.config.expandsHierarchy)
      (fun _ => ProperValue r.config.expandsHierarchy) where
  defaults := hdefaults
  classMember kind t := by
    unfold Reader.classMember
    split
    · exact every_none
    · split
      · exact every_some.2 (.categories _)
      · exact every_some.2 (.concept _)
  articleMember t := by
    unfold Reader.articleMember
    split
    · intro d hd
      obtain ⟨id, -, rfl⟩ := Option.map_eq_some_iff.1 hd
      exact .inNamespace _ _
    · split
      · exact every_some.2 (.value _ _ _)
      · exact every_none
  merge mode _ _ := mode.proper_merge
  literal c t := by
    unfold Reader.value
    dsimp only
    split
    · exact .proper (.value _ _ _)
    · exact .thing
  thing _ := .thing
  condition _ _ _ hd := .proper hd
  mergeValues _ _ _ := Mode.properValue_merge
  describe _ c _ _ hinner := proper_describe c hinner

end Reader

-- ============================================================ whole queries

namespace Description

/-- A node as it may stand at a place in the tree of a query. -/
structure Shaped (hierarchy : Bool) (path : List Description) (node : Description) : Prop where
  /-- Nothing is printed. -/
  prints : node.prints = []
  conjunction : ∀ children ps, node = .conjunction children ps → 2 ≤ children.length
  /-- A disjunction has several children, or it is the condition that any value
  of a property will do. -/
  disjunction : ∀ children categoryIndex always ps,
    node = .disjunction children categoryIndex always ps →
    (2 ≤ children.length ∧ always = false) ∨
      (children = [] ∧ always = true ∧ ∃ property, IsOperandOf property path)
  /-- So is a condition that is always true, if it is not all of the query. -/
  thing : ∀ ps, node = .thing ps → path = [] ∨ ∃ property, IsOperandOf property path
  categories : ∀ pages expands ps, node = .categories pages expands ps → expands = hierarchy

variable {hierarchy : Bool} {path : List Description} {root node : Description}

theorem Proper.shaped (h : node.Proper hierarchy) : node.Shaped hierarchy path := by
  cases h with
  | conjunction hlength =>
    exact ⟨rfl, by rintro _ _ ⟨⟩; exact hlength, nofun, nofun, nofun⟩
  | disjunction _ hlength =>
    exact ⟨rfl, nofun, by rintro _ _ _ _ ⟨⟩; exact .inl ⟨hlength, rfl⟩, nofun, nofun⟩
  | categories => exact ⟨rfl, nofun, nofun, nofun, by rintro _ _ _ ⟨⟩; rfl⟩
  | _ => exact ⟨rfl, nofun, nofun, nofun, nofun⟩

/-- What stands at a place of a tree of which the root is a proper condition, or
no condition at all. -/
theorem Proper.of_occursAt (hroot : root = .thing [] ∨ root.Proper hierarchy)
    (h : OccursAt root path node) :
    node.Proper hierarchy ∨ (node = .thing [] ∧ path = []) ∨
      (node.ProperValue hierarchy ∧ ∃ property, IsOperandOf property path) := by
  -- what is inside of a proper condition
  have hinside {path : List Description} {parent node : Description}
      (hparent : parent.Proper hierarchy) (hpart : node ∈ parent.parts) :
      node.Proper hierarchy ∨
        (node.ProperValue hierarchy ∧ ∃ property, IsOperandOf property (parent :: path)) := by
    cases hparent with
    | @someProperty property inner hinner =>
      rw [List.mem_singleton.1 hpart]
      exact .inr ⟨hinner, property, .direct _ _ _⟩
    | conjunction _ hchildren => exact .inl (hchildren node hpart)
    | disjunction _ _ hchildren => exact .inl (hchildren node hpart)
    | _ => cases hpart
  induction h with
  | root =>
    rcases hroot with rfl | hroot
    · exact .inr (.inl ⟨rfl, rfl⟩)
    · exact .inl hroot
  | part _ hpart ih =>
    rcases ih with hparent | ⟨rfl, -⟩ | ⟨hparent, -⟩
    · exact (hinside hparent hpart).imp_right .inr
    · cases hpart
    · cases hparent with
      | thing | always => cases hpart
      | proper hparent => exact (hinside hparent hpart).imp_right .inr

end Description

namespace Reader

/-- **What is read has a canonical shape.** On any wiki that restricts queries
to some namespace or not at all, whatever it permits and whatever the query
says, no node of the tree carries print requests, conjunctions have two children
at least and so have disjunctions, unless they are true and say that a property
may have any value; the condition that is always true is all of the query or
says the same of a property; and category lists expand the hierarchy as the wiki
does. -/
theorem read_shaped (config : Config) (hdefaults : config.defaultNamespaces ≠ some [])
    (query : Text) (path : List Description) (node : Description)
    (h : OccursAt (Query.read (ofConfig config) query).description path node) :
    node.Shaped config.expandsHierarchy path := by
  have hrestriction : ∀ d ∈ (ofConfig config).defaults,
      d.WellFormed ∧ d.Proper config.expandsHierarchy := by
    intro d hd
    obtain ⟨ids, hids, rfl⟩ := Option.map_eq_some_iff.1 hd
    refine ⟨wellFormed_restriction config ids, proper_restriction config ?_ _⟩
    rintro rfl
    exact hdefaults hids
  have hroot := (forms_proper (r := ofConfig config) fun d hd => (hrestriction d hd).2).read
    (fun d hd => (hrestriction d hd).1) query
  rcases Proper.of_occursAt (hroot.imp_right And.right) h with
    hproper | ⟨rfl, rfl⟩ | ⟨hvalue, hoperand⟩
  · exact hproper.shaped
  · exact ⟨rfl, nofun, nofun, fun _ _ => .inl rfl, nofun⟩
  · cases hvalue with
    | thing => exact ⟨rfl, nofun, nofun, fun _ _ => .inr hoperand, nofun⟩
    | always =>
      refine ⟨rfl, nofun, ?_, nofun, nofun⟩
      rintro _ _ _ _ ⟨⟩
      exact .inr ⟨rfl, rfl, hoperand⟩
    | proper hproper => exact hproper.shaped

/-- A number that may be anything, given as `+` and one more alternative, on a
wiki that restricts queries to two namespaces. -/
theorem read_shaped_any_number :
    let config : Config :=
      { propertyTypes := [("Age".toList, .number)], defaultNamespaces := some [0, 12] }
    let query := "[[Age::+||3]]".toList
    let anything := Description.disjunction [] none true []
    let age := Description.someProperty ⟨"Age".toList, false⟩ anything []
    let tree := Description.conjunction
      [.disjunction [.inNamespace 0 [] [], .inNamespace 12 "Help".toList []] none false [], age] []
    config.defaultNamespaces ≠ some [] ∧
      (Query.read (ofConfig config) query).description = tree ∧
      OccursAt (Query.read (ofConfig config) query).description [age, tree] anything ∧
      anything.Shaped config.expandsHierarchy [age, tree] := by
  intro config query anything age tree
  have hchain : chain config "Age".toList = .ok ⟨[], ⟨"Age".toList, false⟩, .number⟩ := rfl
  have hread : (Query.read (ofConfig config) query).description = tree := by
    unfold Query.read read
    rw [readSubquery_ne_nil (by decide +kernel), readAlternatives_openAtom (by decide +kernel),
      readAtom_property (by decide +kernel) (by decide +kernel) (by decide +kernel)
        (by decide +kernel),
      readProperty_ok hchain,
      readValues_more (by rw [readOneValue_wildcard (by decide +kernel)]; decide +kernel),
      readOneValue_wildcard (by decide +kernel),
      readValues_last (by rw [readOneValue_literal (by decide +kernel)]; decide +kernel),
      readOneValue_literal (by decide +kernel), readAlternatives_finish (by decide +kernel)]
    decide +kernel
  have hnode : OccursAt (Query.read (ofConfig config) query).description [age, tree] anything := by
    rw [hread]
    exact .part (.part .root (List.mem_cons_of_mem _ List.mem_cons_self)) List.mem_cons_self
  exact ⟨nofun, hread, hnode, read_shaped config nofun query _ _ hnode⟩

end Reader

end InlineQuery
