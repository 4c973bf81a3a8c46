/-
What pruning drops is accounted for.

The fragments in a report are texts, but each of them writes a part of the
tree (`IsFragmentOf`), and the sizes of these parts and of what is kept add up
to the size of the tree. Nothing is reported twice and nothing is missing.

The balance is struck for the children of a container first
(`pruneAll_accounts`). If anything is left of the container, their fragments
are its fragments, and putting it together again has to keep the sum of their
sizes (`sizeAll_children_rebuild`). If nothing is left, what the children have
reported is thrown away, and the container itself is the only fragment.

# Category lists

A list whose hierarchy is expanded costs one, whatever its length. Where two
such lists are merged the sum gets smaller without anything being dropped, and
so the balance is one of trees without them (`Unexpanded`). Pruning has to be
shown to leave none of them (`unexpanded_prune`), since what is merged are
children that were pruned.
-/
import InlineQuery.Proofs.Description.Flattening
import InlineQuery.Proofs.Prune.Budget
import InlineQuery.Proofs.Prune.WellFormed

namespace InlineQuery

namespace Description

variable {d : Description}

-- ============================================================ category lists

/-- The node is no category list, or one that costs its length. -/
def CountsPages : Description → Prop
  | .categories _ hierarchy _ => hierarchy = false
  | _ => True

/-- No category list in the tree is expanded over the hierarchy. -/
def Unexpanded (d : Description) : Prop := d.Throughout CountsPages

theorem Unexpanded.withPrints (h : d.Unexpanded) (requests : List PrintRequest) :
    (d.withPrints requests).Unexpanded :=
  Throughout.withPrints h (fun node requests hnode => by cases node <;> exact hnode) requests

theorem unexpanded_categories {pages : List Page} {hierarchy : Bool} {ps : List PrintRequest} :
    (categories pages hierarchy ps).Unexpanded ↔ hierarchy = false :=
  throughout_leaf rfl rfl

theorem unexpanded_thing (ps : List PrintRequest) : (thing ps).Unexpanded :=
  (throughout_leaf rfl rfl).2 trivial

theorem conjunctHeritable_unexpanded : ConjunctHeritable Unexpanded where
  withPrints _ requests h := h.withPrints requests
  children _ _ h _ hchild := Throughout.of_mem_children h hchild

theorem disjunctHeritable_unexpanded : DisjunctHeritable Unexpanded where
  withPrints _ requests h := h.withPrints requests
  children _ _ _ _ h _ hchild := Throughout.of_mem_children h hchild
  merge _ _ _ _ _ _ hxs hys := by
    rw [unexpanded_categories] at hxs hys ⊢
    rw [hxs, hys]
    rfl

end Description

open Description

-- ========================================================== sums of the sizes

namespace Disjuncts

/-- Two category lists that are not expanded cost as much merged as they did
apart. -/
theorem sizeAll_insertCategories {d : Disjuncts} (hd : ∀ x ∈ d.children, x.Unexpanded)
    (pages : List Page) :
    sizeAll (d.insertCategories pages false).children = sizeAll d.children + pages.length := by
  obtain ⟨i, old, oldHierarchy, ps, -, hold, heq⟩ | heq := d.insertCategories_cases pages false
  · have hlist := unexpanded_categories.1 (hd _ (List.mem_of_getElem? hold))
    subst hlist
    have hset := sizeAll_set hold (.categories (old ++ pages) (false || false) ps)
    rw [heq]
    simp [size, List.length_append] at hset ⊢
    omega
  · rw [heq]
    simp [size, sizeAll]

/-- What was true remains so, whatever is inserted. -/
theorem always_eq_false_of_insert {d : Disjuncts} {child : Description}
    (h : (d.insert child).always = false) : d.always = false := by
  cases halways : d.always with
  | false => rfl
  | true =>
    rw [insert_of_always halways] at h
    exact halways.symm.trans h

/-- The condition under which an insertion looks at what is inserted. -/
theorem not_always_of_insert {d : Disjuncts} {child : Description}
    (h : (d.insert child).always = false) (ps : List PrintRequest) :
    ¬ (d.addPrints ps).always = true := by
  rw [show (d.addPrints ps).always = d.always from rfl, always_eq_false_of_insert h]
  exact Bool.false_ne_true

theorem always_eq_false_of_foldl_insert {d : Disjuncts} {children : List Description}
    (h : (children.foldl insert d).always = false) : d.always = false := by
  induction children generalizing d with
  | nil => exact h
  | cons child rest ih => exact always_eq_false_of_insert (ih h)

/-- Insertions that keep their sizes up to a point, one after the other. -/
theorem sizeAll_foldl_insert {children : List Description}
    (hchildren : ∀ child ∈ children, child.Unexpanded)
    (hinsert : ∀ child ∈ children, ∀ d : Disjuncts, (∀ x ∈ d.children, x.Unexpanded) →
      (d.insert child).always = false →
      sizeAll (d.insert child).children = sizeAll d.children + child.size)
    {d : Disjuncts} (hd : ∀ x ∈ d.children, x.Unexpanded)
    (h : (children.foldl insert d).always = false) :
    sizeAll (children.foldl insert d).children = sizeAll d.children + sizeAll children := by
  induction children generalizing d with
  | nil => rfl
  | cons child rest ih =>
    have hfirst := forall_insert disjunctHeritable_unexpanded hd
      (hchildren child List.mem_cons_self)
    have hsum := hinsert child List.mem_cons_self d hd (always_eq_false_of_foldl_insert h)
    have hrest := ih (fun c hc => hchildren c (List.mem_cons_of_mem child hc))
      (fun c hc => hinsert c (List.mem_cons_of_mem child hc)) hfirst h
    rw [List.foldl_cons, hrest, hsum, sizeAll, Nat.add_assoc]

/-- A disjunction that is not true has not lost anything that was inserted
into it. -/
theorem sizeAll_insert {child : Description} (hchild : child.Unexpanded) {d : Disjuncts}
    (hd : ∀ x ∈ d.children, x.Unexpanded) (h : (d.insert child).always = false) :
    sizeAll (d.insert child).children = sizeAll d.children + child.size := by
  induction child using Description.induct generalizing d with
  | thing ps =>
    have hbefore := not_always_of_insert h ps
    simp only [insert] at h
    rw [if_neg hbefore] at h
    cases h
  | categories pages hierarchy ps =>
    have hhierarchy := unexpanded_categories.1 hchild
    subst hhierarchy
    rw [insert_categories (always_eq_false_of_insert h)]
    exact sizeAll_insertCategories hd pages
  | disjunction inner categoryIndex always ps ih =>
    have hbefore := not_always_of_insert h ps
    simp only [insert] at h ⊢
    rw [if_neg hbefore] at h ⊢
    split at h
    · cases h
    · next hinner =>
      rw [insertAll_eq_foldl] at h
      rw [if_neg hinner, insertAll_eq_foldl]
      have hchildren : ∀ c ∈ inner, c.Unexpanded := (throughout_disjunction.1 hchild).2
      exact sizeAll_foldl_insert hchildren
        (fun c hc d hd h => ih c hc (hchildren c hc) hd h) (d := d.addPrints ps) hd h
  | _ =>
    rw [insert_eq_push (always_eq_false_of_insert h) rfl rfl rfl]
    simp [addPrints, push, size, sizeAll, withPrints]

end Disjuncts

namespace Description

theorem sizeAll_children_allOf (children : List Description) :
    sizeAll (allOf children).children = sizeAll children := by
  have hfold (c : Conjuncts) :
      sizeAll (children.foldl Conjuncts.insert c).children =
        sizeAll c.children + sizeAll children := by
    induction children generalizing c with
    | nil => rfl
    | cons child rest ih =>
      rw [List.foldl_cons, ih, Conjuncts.sizeAll_insert, sizeAll, Nat.add_assoc]
  have hempty := hfold .empty
  rwa [Conjuncts.empty, sizeAll, Nat.zero_add] at hempty

theorem sizeAll_children_anyOf {children : List Description}
    (hwellFormed : ∀ child ∈ children, child.WellFormed)
    (hchildren : ∀ child ∈ children, child.Unexpanded) (hne : (anyOf children).children ≠ []) :
    sizeAll (anyOf children).children = sizeAll children := by
  have halways : (children.foldl Disjuncts.insert .empty).always = false :=
    (wellFormed_anyOf hwellFormed).always_eq_false hne
  have hsum := Disjuncts.sizeAll_foldl_insert (d := .empty) hchildren
    (fun child hchild _ hd h => Disjuncts.sizeAll_insert (hchildren child hchild) hd h)
    (List.forall_mem_nil _) halways
  rwa [Disjuncts.empty, sizeAll, Nat.zero_add] at hsum

/-- A container of which something is left costs what was put into it. -/
theorem IsContainer.sizeAll_children_rebuild (h : IsContainer d) {children : List Description}
    (hwellFormed : ∀ child ∈ children, child.WellFormed)
    (hchildren : ∀ child ∈ children, child.Unexpanded)
    (hne : (d.rebuild children).children ≠ []) :
    sizeAll (d.rebuild children).children = sizeAll children := by
  obtain heq | heq := h.rebuild_cases children
  · rw [heq]
    exact sizeAll_children_allOf children
  · rw [heq] at hne ⊢
    exact sizeAll_children_anyOf hwellFormed hchildren hne

-- ============================================================== pruned trees

theorem IsContainer.unexpanded_iff (h : IsContainer d) :
    d.Unexpanded ↔ ∀ child ∈ d.children, child.Unexpanded := by
  have hroot : d.CountsPages := by cases d <;> first | exact trivial | cases h
  exact h.throughout_iff.trans (and_iff_right hroot)

/-- Pruning expands no category list. -/
theorem unexpanded_prune (hd : d.Unexpanded) (budget : Budget) :
    (prune budget d).description.Unexpanded := by
  induction d using prune_induct generalizing budget with
  | thing ps => exact hd
  | elementary d hkind =>
    rw [prune_elementary hkind, keepOrDrop]
    split
    · exact hd
    · exact unexpanded_thing d.prints
  | categories pages hierarchy ps =>
    rw [prune, pruneCategories]
    dsimp only
    split
    · exact hd
    · split
      · exact unexpanded_thing ps
      · exact unexpanded_categories.2 (unexpanded_categories.1 hd)
  | someProperty property inner ps ih =>
    rw [prune]
    split
    · exact unexpanded_thing ps
    · exact throughout_someProperty.2 ⟨trivial, ih (throughout_someProperty.1 hd).2 _⟩
  | container d hkind ih =>
    have hpruned := forall_pruneAll
      (fun child hchild => ih child hchild (hkind.unexpanded_iff.1 hd child hchild))
      budget.depth budget
    have hrebuilt := hkind.forall_rebuild conjunctHeritable_unexpanded
      disjunctHeritable_unexpanded hpruned
    rw [prune_container hkind]
    split
    · exact hd
    · split
      · exact unexpanded_thing d.prints
      · refine pruneContainer_induct (fun _ ps => unexpanded_thing ps) (fun child hsingle => ?_)
          (fun _ => (hkind.isContainer_rebuild _).unexpanded_iff.2 hrebuilt)
          (fun _ requests hx => hx.withPrints requests) d budget _
        exact hrebuilt child (hsingle ▸ List.mem_singleton_self child)

-- ================================================================= fragments

/-- What may be dropped of a tree at a time: a subtree, or the pages at the end
of a category list, though not all of them. -/
inductive IsFragmentOf : Description → Description → Prop
  | subtree {node d : Description} : node.OccursIn d → IsFragmentOf node d
  | pages {kept rest : List Page} {hierarchy : Bool} {ps : List PrintRequest}
      {d : Description} :
    (categories (kept ++ rest) hierarchy ps).OccursIn d → kept ≠ [] → rest ≠ [] →
      IsFragmentOf (.categories rest hierarchy []) d

theorem IsFragmentOf.mono {f part : Description} (hf : f.IsFragmentOf part)
    (h : ∀ node : Description, node.OccursIn part → node.OccursIn d) : f.IsFragmentOf d := by
  cases hf with
  | subtree hnode => exact .subtree (h _ hnode)
  | pages hlist hkept hrest => exact .pages (h _ hlist) hkept hrest

theorem OccursIn.of_mem_children {node child : Description} (h : node.OccursIn child)
    (hchild : child ∈ d.children) : node.OccursIn d := by
  cases d with
  | conjunction => exact .conjunct hchild h
  | disjunction => exact .disjunct hchild h
  | _ => cases hchild

end Description

/-- The fragments are what was dropped of the tree, and together with what is
kept they cost what the tree did. -/
structure Pruned.Accounts (p : Pruned) (d : Description) (fragments : List Description) :
    Prop where
  dropped : p.dropped = fragments.map write
  fragment : ∀ f ∈ fragments, f.IsFragmentOf d
  size : p.description.size + sizeAll fragments = d.size

/-- The same of several children. -/
structure PrunedChildren.Accounts (p : PrunedChildren) (children fragments : List Description) :
    Prop where
  dropped : p.dropped = fragments.map write
  fragment : ∀ f ∈ fragments, ∃ child ∈ children, f.IsFragmentOf child
  size : sizeAll p.children + sizeAll fragments = sizeAll children

namespace Description

-- =============================================================== the balance

/-- A tree that is kept as it is. -/
theorem accounts_kept (d : Description) (left : Budget) :
    (Pruned.mk d left []).Accounts d [] :=
  ⟨rfl, List.forall_mem_nil _, rfl⟩

/-- A tree that is dropped is its own fragment. -/
theorem accounts_drop (d : Description) (left : Budget) : (d.drop left).Accounts d [d] where
  dropped := rfl
  fragment f hf := by
    rw [List.mem_singleton.1 hf]
    exact .subtree .root
  size := by
    show 0 + (d.size + 0) = d.size
    omega

theorem accounts_pruneCategories (pages : List Page) (ps : List PrintRequest) (budget : Budget) :
    ∃ fragments, (pruneCategories pages false ps budget).Accounts (.categories pages false ps)
      fragments := by
  unfold pruneCategories
  dsimp only
  split
  · exact ⟨[], accounts_kept _ _⟩
  · next hsize =>
    have hlength : budget.size < pages.length := by simpa [size] using hsize
    split
    · exact ⟨_, accounts_drop _ budget⟩
    · next hzero =>
      refine ⟨[.categories (pages.drop budget.size) false []], rfl, fun f hf => ?_, ?_⟩
      · have hkept : pages.take budget.size ≠ [] := List.ne_nil_of_length_pos (by simp; omega)
        have hrest : pages.drop budget.size ≠ [] := List.ne_nil_of_length_pos (by simp; omega)
        have hlist : (categories (pages.take budget.size ++ pages.drop budget.size) false
            ps).OccursIn (.categories pages false ps) := by
          rw [List.take_append_drop]
          exact .root
        rw [List.mem_singleton.1 hf]
        exact .pages hlist hkept hrest
      · simp [size, sizeAll]
        omega

/-- What is left of a container and what was dropped of it, given the balance of
its children. -/
theorem accounts_pruneContainer (hkind : IsContainer d) {pruned : PrunedChildren}
    {fragments : List Description} (hpruned : pruned.Accounts d.children fragments)
    (hwellFormed : ∀ child ∈ pruned.children, child.WellFormed)
    (hunexpanded : ∀ child ∈ pruned.children, child.Unexpanded) (budget : Budget) :
    ∃ fragments,
      (pruneContainer d (d.rebuild pruned.children) budget pruned).Accounts d fragments := by
  have hsum := hkind.sizeAll_children_rebuild hwellFormed hunexpanded
  have hsize := hpruned.size
  have hfragment : ∀ f ∈ fragments, f.IsFragmentOf d := by
    intro f hf
    obtain ⟨child, hchild, hpart⟩ := hpruned.fragment f hf
    exact hpart.mono fun node hnode => hnode.of_mem_children hchild
  obtain ⟨-, heq⟩ | ⟨child, hsingle, heq⟩ | ⟨hlength, heq⟩ :=
    pruneContainer_cases d (d.rebuild pruned.children) budget pruned
  · rw [heq]
    exact ⟨[d], accounts_drop d _⟩
  · have hchild := hsum (by rw [hsingle]; exact List.cons_ne_nil child [])
    rw [hsingle, sizeAll, sizeAll, Nat.add_zero] at hchild
    rw [heq]
    refine ⟨fragments, hpruned.dropped, hfragment, ?_⟩
    rw [size_withPrints, hkind.size_eq, hchild]
    exact hsize
  · have hchildren := hsum (List.ne_nil_of_length_pos (by omega))
    rw [heq]
    refine ⟨fragments, hpruned.dropped, hfragment, ?_⟩
    rw [size_withPrints, hkind.size_eq, (hkind.isContainer_rebuild _).size_eq, hchildren]
    exact hsize

/-- The balances of the children add up. -/
theorem pruneAll_accounts {children : List Description}
    (hchildren : ∀ child ∈ children, ∀ budget, ∃ fragments,
      (prune budget child).Accounts child fragments) (depth : Nat) (budget : Budget) :
    ∃ fragments, (pruneAll depth budget children).Accounts children fragments := by
  induction children generalizing budget with
  | nil => exact ⟨[], rfl, List.forall_mem_nil _, rfl⟩
  | cons child rest ih =>
    obtain ⟨first, hfirst⟩ := hchildren child List.mem_cons_self ⟨budget.size, depth⟩
    obtain ⟨others, hothers⟩ := ih (fun c hc => hchildren c (List.mem_cons_of_mem child hc))
      ⟨(prune ⟨budget.size, depth⟩ child).left.size,
        min budget.depth (prune ⟨budget.size, depth⟩ child).left.depth⟩
    refine ⟨first ++ others, ?_, fun f hf => ?_, ?_⟩
    · rw [pruneAll, List.map_append, ← hfirst.dropped, ← hothers.dropped]
    · rcases List.mem_append.1 hf with hf | hf
      · exact ⟨child, List.mem_cons_self, hfirst.fragment f hf⟩
      · obtain ⟨c, hc, hpart⟩ := hothers.fragment f hf
        exact ⟨c, List.mem_cons_of_mem child hc, hpart⟩
    · have hfsize := hfirst.size
      have hosize := hothers.size
      rw [pruneAll, sizeAll_append]
      simp only [sizeAll]
      omega

theorem exists_accounts_prune (hd : d.WellFormed) (hunexpanded : d.Unexpanded) (budget : Budget) :
    ∃ fragments, (prune budget d).Accounts d fragments := by
  induction d using prune_induct generalizing budget with
  | thing ps => exact ⟨[], accounts_kept _ budget⟩
  | elementary d hkind =>
    rw [prune_elementary hkind, keepOrDrop]
    split
    · exact ⟨[], accounts_kept d _⟩
    · exact ⟨[d], accounts_drop d budget⟩
  | categories pages hierarchy ps =>
    have hhierarchy := unexpanded_categories.1 hunexpanded
    subst hhierarchy
    exact accounts_pruneCategories pages ps budget
  | someProperty property inner ps ih =>
    rw [prune]
    split
    · exact ⟨_, accounts_drop _ budget⟩
    · cases hd with
      | someProperty _ _ hinner =>
        obtain ⟨fragments, hpruned⟩ := ih hinner (throughout_someProperty.1 hunexpanded).2
          ⟨budget.size - 1, budget.depth - 1⟩
        refine ⟨fragments, hpruned.dropped,
          fun f hf => (hpruned.fragment f hf).mono fun _ hnode => .inner hnode, ?_⟩
        have hsize := hpruned.size
        simp only [size]
        omega
  | container d hkind ih =>
    rw [prune_container hkind]
    split
    · exact ⟨[], accounts_kept d budget⟩
    · split
      · exact ⟨[d], accounts_drop d budget⟩
      · have hchildren := hkind.unexpanded_iff.1 hunexpanded
        obtain ⟨fragments, hpruned⟩ := pruneAll_accounts
          (fun child hchild => ih child hchild (hd.of_mem_children hchild)
            (hchildren child hchild)) budget.depth budget
        exact accounts_pruneContainer hkind hpruned
          (forall_pruneAll (fun child hchild => wellFormed_prune (hd.of_mem_children hchild))
            budget.depth budget)
          (forall_pruneAll (fun child hchild => unexpanded_prune (hchildren child hchild))
            budget.depth budget) budget

/-- **The report accounts for everything that was removed.** Of a well-formed
tree without category lists that are expanded, what is dropped are parts of the
tree, written as queries, and they cost as much as the tree has lost. -/
theorem prune_accounts_for_size (hd : d.WellFormed) (hunexpanded : d.Unexpanded)
    (budget : Budget) :
    ∃ fragments : List Description,
      (prune budget d).dropped = fragments.map write ∧
        (∀ f ∈ fragments, f.IsFragmentOf d) ∧
        (prune budget d).description.size + sizeAll fragments = d.size := by
  obtain ⟨fragments, hdropped, hfragment, hsize⟩ := exists_accounts_prune hd hunexpanded budget
  exact ⟨fragments, hdropped, hfragment, hsize⟩

/-- A disjunction becomes true after one of its alternatives has been kept, and
is dropped as a whole; the category list behind it is cut. -/
theorem prune_accounts_for_size_collapsed :
    let a := Page.category "A".toList
    let b := Page.category "B".toList
    let property : Property := ⟨"Located in".toList, false⟩
    let asia := value (.page (Page.main "Asia".toList)) (some property) .equal []
    let either := disjunction [categories [a, b] false [], someProperty property asia []]
      (some 0) false []
    let d := conjunction [either, categories [a, b] false []] []
    (d.WellFormed ∧ d.Unexpanded) ∧
      (prune ⟨3, 0⟩ d).dropped = [either.write, (categories [b] false []).write] ∧
      ∃ fragments : List Description,
        (prune ⟨3, 0⟩ d).dropped = fragments.map write ∧
          (∀ f ∈ fragments, f.IsFragmentOf d) ∧ 1 + sizeAll fragments = 6 := by
  intro a b property asia either d
  have hlist : (categories [a, b] false []).WellFormed := .categories _ _ (by simp)
  have heither : either.WellFormed := by
    show (anyOf [categories [a, b] false [], someProperty property asia []]).WellFormed
    exact wellFormed_anyOf (List.forall_mem_cons.2 ⟨hlist,
      List.forall_mem_singleton.2 (.someProperty _ _ (.value _ _ _ _))⟩)
  have hd : d.WellFormed := by
    show (allOf [either, categories [a, b] false []]).WellFormed
    exact wellFormed_allOf (List.forall_mem_cons.2 ⟨heither, List.forall_mem_singleton.2 hlist⟩)
  have hunexpanded : d.Unexpanded := by
    refine throughout_conjunction.2 ⟨trivial, List.forall_mem_cons.2 ⟨?_,
      List.forall_mem_singleton.2 (unexpanded_categories.2 rfl)⟩⟩
    exact throughout_disjunction.2 ⟨trivial, List.forall_mem_cons.2
      ⟨unexpanded_categories.2 rfl, List.forall_mem_singleton.2
        (throughout_someProperty.2 ⟨trivial, (throughout_leaf rfl rfl).2 trivial⟩)⟩⟩
  exact ⟨⟨hd, hunexpanded⟩, rfl, prune_accounts_for_size hd hunexpanded ⟨3, 0⟩⟩

end Description

end InlineQuery
