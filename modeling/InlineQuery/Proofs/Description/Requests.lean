/-
Print requests are never lost.

Whatever becomes of the conditions of a query, the columns that were asked for
stay as they are, in number and order. They move from node to node, each
operation in its own way: a container takes over the requests of what is
inserted into it, a merged category list those of both lists, and pruning hands
those of a node to whatever takes its place.

# Containers

One insertion appends the requests of what is inserted, whether that becomes a
child, is absorbed, or is of no further use because the container is true
already (`Conjuncts.prints_insert`, `Disjuncts.prints_insert`). Disjunctions
insert the children of a disjunction one by one; these have no requests of
their own if the tree is well-formed, so that none is counted twice.

# Checks

What is read has no requests (`Reader.prints_read`), so the requests of a
checked query are the ones that the check adds.
-/
import InlineQuery.Check
import InlineQuery.Proofs.Prune.Steps
import InlineQuery.Proofs.Reading.Forms

namespace InlineQuery

open Description

-- ============================================================= containers

theorem Conjuncts.prints_insert (c : Conjuncts) (x : Description) :
    (c.insert x).prints = c.prints ++ x.prints := by
  cases x <;> rfl

theorem Conjuncts.prints_foldl_insert (c : Conjuncts) (xs : List Description) :
    (xs.foldl insert c).prints = c.prints ++ xs.flatMap Description.prints := by
  induction xs generalizing c with
  | nil => exact (List.append_nil c.prints).symm
  | cons x xs ih =>
    rw [List.foldl_cons, ih, prints_insert, List.flatMap_cons, List.append_assoc]

namespace Disjuncts

theorem prints_insert (d : Disjuncts) {x : Description} (hx : x.WellFormed) :
    (d.insert x).prints = d.prints ++ x.prints := by
  by_cases halways : d.always = true
  · rw [insert_of_always halways]
    rfl
  have halways : d.always = false := by simpa using halways
  cases hx with
  | thing ps =>
    rw [insert, if_neg (by simp [addPrints, halways])]
    rfl
  | categories hierarchy ps =>
    rw [insert_categories halways, addPrints, prints_insertCategories]
    rfl
  | disjunction ps hdisjunct =>
    rw [insert, if_neg (by simp [addPrints, halways])]
    split
    · rfl
    · rw [insertAll_eq_foldl, (foldl_insert_frame hdisjunct _).prints]
      rfl
  | _ =>
    rw [insert_eq_push halways rfl rfl rfl]
    rfl

theorem prints_foldl_insert (d : Disjuncts) {xs : List Description}
    (hxs : ∀ x ∈ xs, x.WellFormed) :
    (xs.foldl insert d).prints = d.prints ++ xs.flatMap Description.prints := by
  induction xs generalizing d with
  | nil => exact (List.append_nil d.prints).symm
  | cons x xs ih =>
    obtain ⟨hx, hrest⟩ := List.forall_mem_cons.1 hxs
    rw [List.foldl_cons, ih _ hrest, prints_insert d hx, List.flatMap_cons, List.append_assoc]

end Disjuncts

namespace Description

theorem prints_allOf (children : List Description) :
    (allOf children).prints = children.flatMap prints :=
  Conjuncts.prints_foldl_insert .empty children

theorem prints_anyOf {children : List Description} (h : ∀ d ∈ children, d.WellFormed) :
    (anyOf children).prints = children.flatMap prints :=
  Disjuncts.prints_foldl_insert .empty h

end Description

/-- Two conditions that are merged have the requests of both, whatever they
become together. -/
theorem Mode.prints_merge (mode : Mode) {a b : Description} (ha : a.WellFormed)
    (hb : b.WellFormed) : (mode.merge a b).prints = a.prints ++ b.prints := by
  cases mode with
  | conjunctive =>
    rw [merge_conjunctive]
    show ((Conjuncts.empty.insert a).insert b).prints = _
    rw [Conjuncts.prints_insert, Conjuncts.prints_insert]
    rfl
  | disjunctive =>
    by_cases hboth : a.isCategories = true ∧ b.isCategories = true
    · obtain ⟨_, _, _, rfl⟩ := eq_categories_of_isCategories hboth.1
      obtain ⟨_, _, _, rfl⟩ := eq_categories_of_isCategories hboth.2
      rfl
    · rw [merge_disjunctive ha hboth]
      show ((Disjuncts.empty.insert a).insert b).prints = _
      rw [Disjuncts.prints_insert _ hb, Disjuncts.prints_insert _ ha]
      rfl

-- ================================================================= pruning

namespace Description

theorem prints_keepOrDrop (d : Description) (budget : Budget) :
    (d.keepOrDrop budget).description.prints = d.prints := by
  unfold keepOrDrop
  split <;> rfl

theorem prints_pruneContainer (d rebuilt : Description) (budget : Budget)
    (pruned : PrunedChildren) :
    (pruneContainer d rebuilt budget pruned).description.prints = d.prints := by
  obtain ⟨-, heq⟩ | ⟨child, -, heq⟩ | ⟨-, heq⟩ := pruneContainer_cases d rebuilt budget pruned
  · rw [heq]
    rfl
  · rw [heq]
    exact prints_withPrints d.prints child
  · rw [heq]
    exact prints_withPrints d.prints rebuilt

/-- What takes the place of the root has its print requests. -/
theorem prints_prune (d : Description) (budget : Budget) :
    (prune budget d).description.prints = d.prints := by
  induction d using prune_induct with
  | thing ps => rfl
  | elementary d hkind =>
    rw [prune_elementary hkind]
    exact prints_keepOrDrop d budget
  | categories pages hierarchy ps =>
    rw [prune, pruneCategories]
    dsimp only
    split
    · rfl
    · split <;> rfl
  | someProperty property inner ps =>
    rw [prune]
    split <;> rfl
  | container d hkind =>
    rw [prune_container hkind]
    split
    · rfl
    · split
      · rfl
      · exact prints_pruneContainer d _ budget _

end Description

-- ================================================================= reading

namespace Reader

theorem prints_restriction (config : Config) (ids : List NamespaceId) :
    (restriction config ids).prints = [] := by
  unfold restriction
  split
  · rfl
  · have hnames : ∀ d ∈ ids.map (namespaceOf config), d.WellFormed ∧ d.prints = [] := by
      intro d hd
      obtain ⟨id, -, rfl⟩ := List.mem_map.1 hd
      exact ⟨wellFormed_namespaceOf config id, rfl⟩
    rw [prints_anyOf fun d hd => (hnames d hd).1, List.flatMap_eq_nil_iff]
    exact fun d hd => (hnames d hd).2

/-- Readers make conditions that print nothing. -/
theorem forms_prints {r : Reader} (hdefaults : Every (fun d => d.prints = []) r.defaults) :
    r.Forms (fun d => d.prints = []) (fun _ d => d.prints = []) where
  defaults := hdefaults
  classMember kind t := by
    unfold Reader.classMember
    split
    · exact every_none
    · split <;> exact every_some.2 rfl
  articleMember t := by
    unfold Reader.articleMember
    split
    · intro d hd
      obtain ⟨id, -, rfl⟩ := Option.map_eq_some_iff.1 hd
      rfl
    · split
      · exact every_some.2 rfl
      · exact every_none
  merge mode a b ha hb hpa hpb := by rw [mode.prints_merge ha hb, hpa, hpb, List.append_nil]
  literal c t := by
    unfold Reader.value
    dsimp only
    split <;> rfl
  thing _ := rfl
  condition _ _ _ hd := hd
  mergeValues _ a b ha hb hpa hpb := by
    rw [Mode.prints_merge .disjunctive ha hb, hpa, hpb, List.append_nil]
  describe _ c inner _ hinner := by
    unfold Chain.describe
    rw [List.foldr_append]
    cases c.outer <;> rfl

theorem prints_read {r : Reader}
    (hdefaults : Every (fun d => d.WellFormed ∧ d.prints = []) r.defaults) (query : Text) :
    (r.read query).description.prints = [] := by
  have hforms := forms_prints fun d hd => (hdefaults d hd).2
  rcases hforms.read (fun d hd => (hdefaults d hd).1) query with heq | ⟨-, hprints⟩
  · rw [heq]
    rfl
  · exact hprints

end Reader

-- ================================================================== checks

namespace Check

/-- The print requests are read one by one, all of them or none. -/
theorem readPrints_eq_ok {categoryNames ts : List Text} {requests : List PrintRequest}
    (h : readPrints categoryNames ts = .ok requests) :
    ts.map (PrintRequest.read? categoryNames) = requests.map some := by
  induction ts generalizing requests with
  | nil =>
    cases h
    rfl
  | cons t ts ih =>
    rw [readPrints] at h
    split at h
    · cases h
    · next request hrequest =>
      cases hrest : readPrints categoryNames ts with
      | error e =>
        rw [hrest] at h
        cases h
      | ok others =>
        rw [hrest] at h
        cases h
        rw [List.map_cons, List.map_cons, hrequest, ih hrest]

/-- A check restricts queries to namespaces or not at all. -/
theorem every_defaults_reader (c : Check) :
    Reader.Every (fun d => d.WellFormed ∧ d.prints = []) c.reader.defaults := by
  have hrestriction (ids : Option (List NamespaceId)) :
      Reader.Every (fun d => d.WellFormed ∧ d.prints = [])
        (ids.map (Reader.restriction c.config)) := by
    intro d hd
    obtain ⟨ids, -, rfl⟩ := Option.map_eq_some_iff.1 hd
    exact ⟨Reader.wellFormed_restriction c.config ids, Reader.prints_restriction c.config ids⟩
  unfold reader
  dsimp only
  split
  · next ids _ => exact hrestriction (some ids)
  · exact hrestriction c.config.defaultNamespaces

/-- A check that succeeds has read all of its print requests, and they are those
of the query, cut to limits or not. -/
theorem prints_run {c : Check} {q : Query} (h : c.run = .ok q) :
    readPrints c.config.categoryNames c.prints = .ok q.description.prints := by
  have hread : (Query.read c.reader c.query).description.prints = [] :=
    Reader.prints_read c.every_defaults_reader c.query
  unfold run at h
  split at h
  · cases h
  · dsimp only at h
    split at h
    · cases h
    · next requests hrequests =>
      rw [hread, List.nil_append] at h
      split at h
      · cases h
        show _ = Except.ok (Description.prune _ (Description.withPrints requests _)).description.prints
        rw [prints_prune, prints_withPrints, hrequests]
      · cases h
        rw [prints_withPrints, hrequests]

/-- **Print requests are never lost, duplicated or reordered.** A container built
of well-formed conditions has the requests of all of them, in order; pruning
leaves those of the root as they are, whatever the budget; and so a checked
query has exactly the requests that the check asks for, in the order given. -/
theorem requests_kept :
    (∀ children : List Description, (∀ d ∈ children, d.WellFormed) →
      (allOf children).prints = children.flatMap Description.prints ∧
        (anyOf children).prints = children.flatMap Description.prints) ∧
    (∀ (d : Description) (budget : Budget), d.WellFormed →
      (Description.prune budget d).description.prints = d.prints) ∧
    ∀ (c : Check) (q : Query), c.run = .ok q →
      c.prints.map (PrintRequest.read? c.config.categoryNames) =
        q.description.prints.map some :=
  ⟨fun children h => ⟨prints_allOf children, prints_anyOf h⟩,
    fun d budget _ => prints_prune d budget, fun _ _ h => readPrints_eq_ok (prints_run h)⟩

/-- A query that is cut down to nothing, with a category list that a disjunction
has merged: the columns of the query and those of the disjunction remain. -/
theorem requests_kept_pruned :
    let a := Page.category "A".toList
    let b := Page.category "B".toList
    let population : PrintRequest := ⟨"Inhabitants".toList, .property ⟨"Population".toList, false⟩⟩
    let page : PrintRequest := ⟨[], .thisPage⟩
    let children : List Description :=
      [.categories [a] false [population], .thing [page], .categories [b] false [population]]
    let c : Check :=
      { query := "[[Berlin]]".toList, prints := ["?Population = Inhabitants".toList, "?".toList],
        prune := true, maxSize := some 0 }
    let q : Query := ⟨.thing [population, page], [], ["[[:Berlin]]".toList]⟩
    (∀ d ∈ children, d.WellFormed) ∧
      (anyOf children).prints = [population, page, population] ∧
      c.run = .ok q ∧
      c.prints.map (PrintRequest.read? c.config.categoryNames) =
        q.description.prints.map some := by
  intro a b population page children c q
  have hchildren : ∀ d ∈ children, d.WellFormed :=
    List.forall_mem_cons.2 ⟨.categories _ _ (by simp),
      List.forall_mem_cons.2 ⟨.thing _, List.forall_mem_singleton.2 (.categories _ _ (by simp))⟩⟩
  have hrun : c.run = .ok q := by
    have hread : (c.reader.read c.query).description =
          .value (.page (Page.main "Berlin".toList)) none .equal [] ∧
        (c.reader.read c.query).state.diagnostics = [] := by
      unfold Reader.read
      rw [Reader.readSubquery_ne_nil (by decide +kernel),
        Reader.readAlternatives_openAtom (by decide +kernel),
        Reader.readAtom_article (by decide +kernel) (by decide +kernel) (by decide +kernel),
        Reader.articleAtom_last (by decide +kernel) (by decide +kernel),
        Reader.readAlternatives_finish (by decide +kernel)]
      decide +kernel
    unfold run Query.read
    dsimp only
    rw [hread.1, hread.2]
    rfl
  exact ⟨hchildren, (requests_kept.1 children hchildren).2, hrun, requests_kept.2.2 c q hrun⟩

end Check

end InlineQuery
