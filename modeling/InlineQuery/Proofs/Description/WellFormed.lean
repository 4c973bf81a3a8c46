/-
Trees as the operations leave them.

What is inserted into a container is taken apart, so that some of all trees
never arise: no container has a child of its own kind, none has a child
without any condition, a disjunction has one category list at most and knows
its place, and print requests are at the outermost nodes only. Whatever works
on trees counts on that.

# The invariant

`WellFormed` says it of a whole tree. `Conjuncts.WellFormed` and
`Disjuncts.WellFormed` say it of a container that is being built, and one
insertion keeps it (`Conjuncts.WellFormed.insert`,
`Disjuncts.WellFormed.insert`); the builders follow by induction on what they
are given.

# Building again

A well-formed container is what its children make of an empty one: nothing
is lost and nothing moves when they are inserted again, one after the other
(`allOf_children`, `anyOf_children`).
-/
import InlineQuery.Proofs.Description.Children

namespace InlineQuery

namespace Description

/-- The node is a category list. -/
def isCategories : Description → Bool
  | .categories _ _ _ => true
  | _ => false

@[simp] theorem isThing_withPrints (requests : List PrintRequest) (d : Description) :
    (d.withPrints requests).isThing = d.isThing := by
  cases d <;> rfl

@[simp] theorem isConjunction_withPrints (requests : List PrintRequest) (d : Description) :
    (d.withPrints requests).isConjunction = d.isConjunction := by
  cases d <;> rfl

@[simp] theorem isDisjunction_withPrints (requests : List PrintRequest) (d : Description) :
    (d.withPrints requests).isDisjunction = d.isDisjunction := by
  cases d <;> rfl

@[simp] theorem isCategories_withPrints (requests : List PrintRequest) (d : Description) :
    (d.withPrints requests).isCategories = d.isCategories := by
  cases d <;> rfl

theorem eq_categories_of_isCategories {d : Description} (h : d.isCategories = true) :
    ∃ pages hierarchy ps, d = .categories pages hierarchy ps := by
  cases d with
  | categories pages hierarchy ps => exact ⟨pages, hierarchy, ps, rfl⟩
  | _ => cases h

end Description

open Description

-- ================================================= children of containers

/-- A condition that a conjunction takes in as it is. -/
structure IsConjunct (d : Description) : Prop where
  notThing : d.isThing = false
  notConjunction : d.isConjunction = false
  prints : d.prints = []

/-- A condition that a disjunction takes in as it is. -/
structure IsDisjunct (d : Description) : Prop where
  notThing : d.isThing = false
  notDisjunction : d.isDisjunction = false
  prints : d.prints = []

namespace Description

/-- Conjunctions hold no conjunction and disjunctions no disjunction, neither
of them an empty condition or a child with print requests. The category list
of a disjunction is where its index says, so that there is one at most; a
disjunction that is true holds nothing. Category lists name a category. -/
inductive WellFormed : Description → Prop
  | thing (ps : List PrintRequest) : WellFormed (.thing ps)
  | value (item : Item) (property : Option Property) (comparator : Comparator)
      (ps : List PrintRequest) : WellFormed (.value item property comparator ps)
  | categories {pages : List Page} (hierarchy : Bool) (ps : List PrintRequest) :
    pages ≠ [] → WellFormed (.categories pages hierarchy ps)
  | inNamespace (id : NamespaceId) (label : Text) (ps : List PrintRequest) :
    WellFormed (.inNamespace id label ps)
  | concept (page : Page) (ps : List PrintRequest) : WellFormed (.concept page ps)
  | someProperty (property : Property) {inner : Description} (ps : List PrintRequest) :
    WellFormed inner → WellFormed (.someProperty property inner ps)
  | conjunction {children : List Description} (ps : List PrintRequest) :
    (∀ child ∈ children, IsConjunct child) → (∀ child ∈ children, WellFormed child) →
    WellFormed (.conjunction children ps)
  | disjunction {children : List Description} {categoryIndex : Option Nat} {always : Bool}
      (ps : List PrintRequest) :
    (∀ child ∈ children, IsDisjunct child) → (∀ child ∈ children, WellFormed child) →
    (∀ i, categoryIndex = some i ↔
      ∃ child, children[i]? = some child ∧ child.isCategories = true) →
    (always = true → children = [] ∧ categoryIndex = none) →
    WellFormed (.disjunction children categoryIndex always ps)

theorem wellFormed_withPrints {d : Description} (requests : List PrintRequest)
    (h : d.WellFormed) : (d.withPrints requests).WellFormed := by
  cases h with
  | thing => exact .thing requests
  | value item property comparator => exact .value item property comparator requests
  | categories hierarchy _ hpages => exact .categories hierarchy requests hpages
  | inNamespace id label => exact .inNamespace id label requests
  | concept page => exact .concept page requests
  | someProperty property _ hinner => exact .someProperty property requests hinner
  | conjunction _ hconjunct hchildren => exact .conjunction requests hconjunct hchildren
  | disjunction _ hdisjunct hchildren hindex halways =>
    exact .disjunction requests hdisjunct hchildren hindex halways

theorem WellFormed.of_mem_children {d child : Description} (h : d.WellFormed)
    (hchild : child ∈ d.children) : child.WellFormed := by
  cases h with
  | conjunction _ _ hchildren => exact hchildren child hchild
  | disjunction _ _ hchildren => exact hchildren child hchild
  | _ => cases hchild

/-- No child of a well-formed container is empty. -/
theorem WellFormed.isThing_eq_false {d child : Description} (h : d.WellFormed)
    (hchild : child ∈ d.children) : child.isThing = false := by
  cases h with
  | conjunction _ hconjunct _ => exact (hconjunct child hchild).notThing
  | disjunction _ hdisjunct _ _ _ => exact (hdisjunct child hchild).notThing
  | _ => cases hchild

/-- A disjunction that has children is not true. -/
theorem WellFormed.always_eq_false {children : List Description} {categoryIndex : Option Nat}
    {always : Bool} {ps : List PrintRequest}
    (h : (Description.disjunction children categoryIndex always ps).WellFormed)
    (hne : children ≠ []) : always = false := by
  cases h with
  | disjunction _ _ _ _ halways =>
    by_cases htrue : always = true
    · exact absurd (halways htrue).1 hne
    · simpa using htrue

end Description

-- ============================================================ conjunctions

namespace Conjuncts

/-- What is neither an empty condition nor a conjunction becomes the last
conjunct. -/
theorem insert_eq_append {d : Description} (hthing : d.isThing = false)
    (hconjunction : d.isConjunction = false) (c : Conjuncts) :
    c.insert d = ⟨c.children ++ [d.withPrints []], c.prints ++ d.prints⟩ := by
  cases d with
  | thing => cases hthing
  | conjunction => cases hconjunction
  | _ => rfl

theorem insert_isConjunct {d : Description} (h : IsConjunct d) (c : Conjuncts) :
    c.insert d = ⟨c.children ++ [d], c.prints⟩ := by
  rw [insert_eq_append h.notThing h.notConjunction, h.prints, List.append_nil]
  have hprints := withPrints_prints d
  rw [h.prints] at hprints
  rw [hprints]

theorem foldl_insert_isConjunct {children : List Description}
    (h : ∀ d ∈ children, IsConjunct d) (c : Conjuncts) :
    children.foldl insert c = ⟨c.children ++ children, c.prints⟩ := by
  induction children generalizing c with
  | nil => rw [List.append_nil]; rfl
  | cons d rest ih =>
    rw [List.foldl_cons, insert_isConjunct (h d List.mem_cons_self),
      ih fun x hx => h x (List.mem_cons_of_mem d hx)]
    simp

/-- The children of a conjunction that is being built are as they have to
be. -/
structure WellFormed (c : Conjuncts) : Prop where
  conjunct : ∀ x ∈ c.children, IsConjunct x
  wellFormed : ∀ x ∈ c.children, x.WellFormed

theorem wellFormed_toDescription {c : Conjuncts} : c.toDescription.WellFormed ↔ c.WellFormed := by
  constructor
  · intro h
    cases h with
    | conjunction _ hconjunct hchildren => exact ⟨hconjunct, hchildren⟩
  · rintro ⟨hconjunct, hchildren⟩
    exact .conjunction c.prints hconjunct hchildren

theorem wellFormed_empty : empty.WellFormed := by
  constructor <;> exact fun _ h => nomatch h

theorem WellFormed.insert {c : Conjuncts} {d : Description} (hc : c.WellFormed)
    (hd : d.WellFormed) : (c.insert d).WellFormed := by
  by_cases hthing : d.isThing = true
  · cases d with
    | thing => exact ⟨hc.conjunct, hc.wellFormed⟩
    | _ => cases hthing
  by_cases hconjunction : d.isConjunction = true
  · -- its children are conjuncts already
    cases hd with
    | conjunction ps hconjunct hchildren =>
      exact ⟨List.forall_mem_append.2 ⟨hc.conjunct, hconjunct⟩,
        List.forall_mem_append.2 ⟨hc.wellFormed, hchildren⟩⟩
    | _ => cases hconjunction
  · simp only [Bool.not_eq_true] at hthing hconjunction
    have hconjunct : IsConjunct (d.withPrints []) := ⟨by simpa, by simpa, by simp⟩
    rw [insert_eq_append hthing hconjunction]
    exact ⟨List.forall_mem_append.2 ⟨hc.conjunct, List.forall_mem_singleton.2 hconjunct⟩,
      List.forall_mem_append.2
        ⟨hc.wellFormed, List.forall_mem_singleton.2 (wellFormed_withPrints [] hd)⟩⟩

end Conjuncts

-- ============================================================ disjunctions

namespace Disjuncts

/-- The children of a disjunction that is being built are as they have to
be, and so is what it says of them. -/
structure WellFormed (d : Disjuncts) : Prop where
  disjunct : ∀ x ∈ d.children, IsDisjunct x
  wellFormed : ∀ x ∈ d.children, x.WellFormed
  index : ∀ i, d.categoryIndex = some i ↔
    ∃ x, d.children[i]? = some x ∧ x.isCategories = true
  always : d.always = true → d.children = [] ∧ d.categoryIndex = none

theorem wellFormed_toDescription {d : Disjuncts} : d.toDescription.WellFormed ↔ d.WellFormed := by
  constructor
  · intro h
    cases h with
    | disjunction _ hdisjunct hchildren hindex halways =>
      exact ⟨hdisjunct, hchildren, hindex, halways⟩
  · rintro ⟨hdisjunct, hchildren, hindex, halways⟩
    exact .disjunction d.prints hdisjunct hchildren hindex halways

theorem wellFormed_empty : empty.WellFormed where
  disjunct _ h := nomatch h
  wellFormed _ h := nomatch h
  index i := by simp [empty]
  always h := nomatch h

theorem wellFormed_makeTrue (d : Disjuncts) : d.makeTrue.WellFormed where
  disjunct _ h := nomatch h
  wellFormed _ h := nomatch h
  index i := by simp [makeTrue]
  always _ := ⟨rfl, rfl⟩

theorem insertCategories_of_some {d : Disjuncts} {i : Nat} {old : List Page}
    {oldHierarchy : Bool} {requests : List PrintRequest} (hindex : d.categoryIndex = some i)
    (hold : d.children[i]? = some (.categories old oldHierarchy requests)) (pages : List Page)
    (hierarchy : Bool) :
    d.insertCategories pages hierarchy =
      { d with
        children := d.children.set i
          (.categories (old ++ pages) (oldHierarchy || hierarchy) requests) } := by
  simp [insertCategories, hindex, hold]

theorem insertCategories_of_none {d : Disjuncts} (hindex : d.categoryIndex = none)
    (pages : List Page) (hierarchy : Bool) :
    d.insertCategories pages hierarchy =
      { d with
        children := d.children ++ [.categories pages hierarchy []]
        categoryIndex := some d.children.length } := by
  simp [insertCategories, hindex]

namespace WellFormed

variable {d : Disjuncts}

theorem addPrints (hd : d.WellFormed) (requests : List PrintRequest) :
    (d.addPrints requests).WellFormed :=
  ⟨hd.disjunct, hd.wellFormed, hd.index, hd.always⟩

/-- No more than one child is a category list. -/
theorem categories_unique (hd : d.WellFormed) {i j : Nat} {x y : Description}
    (hx : d.children[i]? = some x) (hy : d.children[j]? = some y)
    (hxc : x.isCategories = true) (hyc : y.isCategories = true) : i = j := by
  have hi := (hd.index i).2 ⟨x, hx, hxc⟩
  have hj := (hd.index j).2 ⟨y, hy, hyc⟩
  rw [hi] at hj
  exact Option.some.inj hj

theorem isCategories_eq_false (hd : d.WellFormed) (hnone : d.categoryIndex = none) :
    ∀ x ∈ d.children, x.isCategories = false := by
  intro x hx
  obtain ⟨i, hi⟩ := List.mem_iff_getElem?.1 hx
  by_cases hcategories : x.isCategories = true
  · have := (hd.index i).2 ⟨x, hi, hcategories⟩
    rw [hnone] at this
    cases this
  · simpa using hcategories

/-- The index points to a category list, if it points anywhere. -/
theorem categories_of_index (hd : d.WellFormed) {i : Nat} (hindex : d.categoryIndex = some i) :
    ∃ pages hierarchy, d.children[i]? = some (.categories pages hierarchy []) := by
  obtain ⟨x, hx, hcategories⟩ := (hd.index i).1 hindex
  obtain ⟨pages, hierarchy, ps, rfl⟩ := eq_categories_of_isCategories hcategories
  have hps : ps = [] := (hd.disjunct _ (List.mem_of_getElem? hx)).prints
  subst hps
  exact ⟨pages, hierarchy, hx⟩

theorem insertCategories (hd : d.WellFormed) (halways : d.always = false) {pages : List Page}
    (hierarchy : Bool) (hpages : pages ≠ []) :
    (d.insertCategories pages hierarchy).WellFormed := by
  have hlist (pages : List Page) (hierarchy : Bool) :
      IsDisjunct (.categories pages hierarchy []) := ⟨rfl, rfl, rfl⟩
  cases hindex : d.categoryIndex with
  | some i =>
    obtain ⟨old, oldHierarchy, hold⟩ := hd.categories_of_index hindex
    rw [insertCategories_of_some hindex hold]
    have hmerged : old ++ pages ≠ [] := by simp [hpages]
    refine ⟨?_, ?_, ?_, ?_⟩
    · intro x hx
      rcases List.mem_or_eq_of_mem_set hx with hx | rfl
      · exact hd.disjunct x hx
      · exact hlist _ _
    · intro x hx
      rcases List.mem_or_eq_of_mem_set hx with hx | rfl
      · exact hd.wellFormed x hx
      · exact .categories _ _ hmerged
    · intro j
      have hlt := (List.getElem?_eq_some_iff.1 hold).1
      by_cases hij : i = j
      · subst hij
        simp [hindex, hlt, isCategories]
      · simp only [List.getElem?_set_ne hij]
        exact hd.index j
    · intro h
      rw [halways] at h
      cases h
  | none =>
    rw [insertCategories_of_none hindex]
    refine ⟨?_, ?_, ?_, ?_⟩
    · exact List.forall_mem_append.2 ⟨hd.disjunct, List.forall_mem_singleton.2 (hlist _ _)⟩
    · exact List.forall_mem_append.2
        ⟨hd.wellFormed, List.forall_mem_singleton.2 (.categories _ _ hpages)⟩
    · intro j
      have hothers := hd.isCategories_eq_false hindex
      by_cases hj : j < d.children.length
      · have hne : d.children.length ≠ j := by omega
        have := hothers _ (List.getElem_mem hj)
        simp [List.getElem?_append_left hj, List.getElem?_eq_getElem hj, hne, this]
      · rcases Nat.lt_or_eq_of_le (Nat.le_of_not_lt hj) with hlt | rfl
        · have hne : d.children.length ≠ j := by omega
          rw [List.getElem?_append_right (Nat.le_of_lt hlt), List.getElem?_eq_none (by simp; omega)]
          simp [hne]
        · simp [isCategories]
    · intro h
      rw [halways] at h
      cases h

/-- A child that is no category list changes nothing about the others. -/
theorem push (hd : d.WellFormed) (halways : d.always = false) {child : Description}
    (hchild : child.WellFormed) (hthing : child.isThing = false)
    (hdisjunction : child.isDisjunction = false) (hcategories : child.isCategories = false) :
    (d.push child).WellFormed := by
  have hdisjunct : IsDisjunct (child.withPrints []) := ⟨by simpa, by simpa, by simp⟩
  refine ⟨?_, ?_, ?_, ?_⟩
  · exact List.forall_mem_append.2 ⟨hd.disjunct, List.forall_mem_singleton.2 hdisjunct⟩
  · exact List.forall_mem_append.2
      ⟨hd.wellFormed, List.forall_mem_singleton.2 (wellFormed_withPrints [] hchild)⟩
  · intro i
    refine (hd.index i).trans ?_
    show _ ↔ ∃ x, (d.children ++ [child.withPrints []])[i]? = some x ∧ _
    by_cases hi : i < d.children.length
    · rw [List.getElem?_append_left hi]
    · rw [List.getElem?_eq_none (Nat.le_of_not_lt hi),
        List.getElem?_append_right (Nat.le_of_not_lt hi), List.getElem?_singleton]
      split
      · simp [hcategories]
      · simp
  · intro h
    rw [show (d.push child).always = d.always from rfl, halways] at h
    cases h

theorem insert {child : Description} (hd : d.WellFormed) (hchild : child.WellFormed) :
    (d.insert child).WellFormed := by
  induction child using Description.induct generalizing d with
  | thing ps =>
    simp only [Disjuncts.insert]
    split
    · exact hd.addPrints ps
    · exact wellFormed_makeTrue _
  | categories pages hierarchy ps =>
    cases hchild with
    | categories _ _ hpages =>
      simp only [Disjuncts.insert]
      split
      · exact hd.addPrints ps
      · next halways =>
        exact (hd.addPrints ps).insertCategories (by simpa using halways) hierarchy hpages
  | disjunction inner categoryIndex always ps ih =>
    simp only [Disjuncts.insert]
    split
    · exact hd.addPrints ps
    · split
      · exact wellFormed_makeTrue _
      · rw [insertAll_eq_foldl]
        exact List.foldlRecOn inner Disjuncts.insert (motive := Disjuncts.WellFormed)
          (hd.addPrints ps) fun d hd c hc => ih c hc hd (hchild.of_mem_children hc)
  | _ =>
    simp only [Disjuncts.insert]
    split
    · exact hd.addPrints _
    · next halways => exact (hd.addPrints _).push (by simpa using halways) hchild rfl rfl rfl

theorem foldl_insert {children : List Description} (hd : d.WellFormed)
    (h : ∀ x ∈ children, x.WellFormed) : (children.foldl Disjuncts.insert d).WellFormed :=
  List.foldlRecOn children Disjuncts.insert (motive := Disjuncts.WellFormed) hd
    fun _ hc x hx => hc.insert (h x hx)

end WellFormed

end Disjuncts

-- ============================================================ the builders

namespace Description

theorem wellFormed_allOf {children : List Description} (h : ∀ d ∈ children, d.WellFormed) :
    (allOf children).WellFormed :=
  Conjuncts.wellFormed_toDescription.2 <|
    List.foldlRecOn children Conjuncts.insert (motive := Conjuncts.WellFormed)
      Conjuncts.wellFormed_empty fun _ hc d hd => hc.insert (h d hd)

theorem wellFormed_anyOf {children : List Description} (h : ∀ d ∈ children, d.WellFormed) :
    (anyOf children).WellFormed :=
  Disjuncts.wellFormed_toDescription.2 (Disjuncts.wellFormed_empty.foldl_insert h)

theorem wellFormed_ofCategories? {hierarchy : Bool} {pages : List Page} {d : Description}
    (h : ofCategories? hierarchy pages = some d) : d.WellFormed := by
  unfold ofCategories? at h
  split at h
  · cases h
  · next hpages =>
    cases h
    exact .categories hierarchy [] (by simpa using hpages)

theorem wellFormed_insert? {d child extended : Description} (hd : d.WellFormed)
    (hchild : child.WellFormed) (h : d.insert? child = some extended) : extended.WellFormed := by
  cases d with
  | conjunction children ps =>
    cases h
    have hbuilt : (Conjuncts.mk children ps).WellFormed := Conjuncts.wellFormed_toDescription.1 hd
    exact Conjuncts.wellFormed_toDescription.2 (hbuilt.insert hchild)
  | disjunction children categoryIndex always ps =>
    cases h
    have hbuilt : (Disjuncts.mk children categoryIndex always ps).WellFormed :=
      Disjuncts.wellFormed_toDescription.1 hd
    exact Disjuncts.wellFormed_toDescription.2 (hbuilt.insert hchild)
  | _ => cases h

theorem wellFormed_mergeCategories? {d other merged : Description} (hd : d.WellFormed)
    (h : d.mergeCategories? other = some merged) : merged.WellFormed := by
  unfold mergeCategories? at h
  split at h
  · cases h
    cases hd with
    | categories _ _ hpages => exact .categories _ _ (by simp [hpages])
  · cases h

end Description

-- ========================================================== building again

/-- A list of which no two elements have a property has at most one that
does. -/
private theorem countP_le_one {α : Type} {p : α → Bool} {xs : List α}
    (h : ∀ (i j : Nat) (x y : α), xs[i]? = some x → xs[j]? = some y → p x = true → p y = true →
      i = j) :
    xs.countP p ≤ 1 := by
  induction xs with
  | nil => simp
  | cons a rest ih =>
    have hrest : rest.countP p ≤ 1 := by
      refine ih fun i j x y hx hy hpx hpy => ?_
      have := h (i + 1) (j + 1) x y (by simpa using hx) (by simpa using hy) hpx hpy
      omega
    by_cases ha : p a = true
    · have hzero : rest.countP p = 0 := by
        rw [List.countP_eq_zero]
        intro x hx hpx
        obtain ⟨j, hj⟩ := List.mem_iff_getElem?.1 hx
        have := h 0 (j + 1) a x rfl (by simpa using hj) ha hpx
        omega
      rw [List.countP_cons, hzero]
      split <;> omega
    · rw [List.countP_cons_of_neg ha]
      exact hrest

namespace Disjuncts

/-- A disjunction with the place of its first category list. -/
def ofChildren (children : List Description) : Disjuncts :=
  ⟨children, children.findIdx? isCategories, false, []⟩

theorem insert_isDisjunct {d : Description} (h : IsDisjunct d)
    {children : List Description} (hcategories : (children ++ [d]).countP isCategories ≤ 1) :
    (ofChildren children).insert d = ofChildren (children ++ [d]) := by
  obtain ⟨hthing, hdisjunction, hprints⟩ := h
  have hindex : d.isCategories = false →
      (children ++ [d]).findIdx? isCategories = children.findIdx? isCategories := by
    intro hd
    rw [List.findIdx?_append]
    simp [List.findIdx?_cons, hd]
  cases d with
  | thing => cases hthing
  | disjunction => cases hdisjunction
  | categories pages hierarchy ps =>
    cases hprints
    have hnone : children.findIdx? isCategories = none := by
      rw [List.countP_append, List.countP_singleton] at hcategories
      rw [List.findIdx?_eq_none_iff]
      exact fun x hx => by
        have hzero : children.countP isCategories = 0 := by
          have : (Description.categories pages hierarchy []).isCategories = true := rfl
          rw [if_pos this] at hcategories
          omega
        simpa using List.countP_eq_zero.1 hzero x hx
    have hsome : (children ++ [Description.categories pages hierarchy []]).findIdx? isCategories =
        some children.length := by
      rw [List.findIdx?_append, hnone]
      simp [List.findIdx?_cons, isCategories]
    simp only [ofChildren, hnone, hsome]
    rfl
  | _ =>
    cases hprints
    simp only [ofChildren, hindex rfl]
    rfl

theorem foldl_insert_isDisjunct (front : List Description) {back : List Description}
    (hback : ∀ d ∈ back, IsDisjunct d) (hcategories : (front ++ back).countP isCategories ≤ 1) :
    back.foldl insert (ofChildren front) = ofChildren (front ++ back) := by
  induction back generalizing front with
  | nil => rw [List.append_nil]; rfl
  | cons d rest ih =>
    have hsplit : front ++ d :: rest = front ++ [d] ++ rest := by simp
    rw [hsplit] at hcategories ⊢
    have hfirst : (front ++ [d]).countP isCategories ≤ 1 := by
      rw [List.countP_append] at hcategories
      omega
    rw [List.foldl_cons, insert_isDisjunct (hback d List.mem_cons_self) hfirst]
    exact ih _ (fun x hx => hback x (List.mem_cons_of_mem d hx)) hcategories

namespace WellFormed

variable {d : Disjuncts}

theorem countP_isCategories_le (hd : d.WellFormed) : d.children.countP isCategories ≤ 1 :=
  countP_le_one fun _ _ _ _ => hd.categories_unique

theorem categoryIndex_eq (hd : d.WellFormed) :
    d.categoryIndex = d.children.findIdx? isCategories := by
  refine Option.ext fun i => (hd.index i).trans ?_
  rw [List.findIdx?_eq_some_iff_getElem]
  constructor
  · rintro ⟨x, hx, hcategories⟩
    obtain ⟨hlt, rfl⟩ := List.getElem?_eq_some_iff.1 hx
    refine ⟨hlt, hcategories, fun j hj hj' => ?_⟩
    have := hd.categories_unique (List.getElem?_eq_getElem (by omega)) hx hj' hcategories
    omega
  · rintro ⟨hlt, hcategories, -⟩
    exact ⟨_, List.getElem?_eq_getElem hlt, hcategories⟩

/-- The children of a disjunction, inserted again one after the other. -/
theorem foldl_insert_children (hd : d.WellFormed) (halways : d.always = false) :
    d.children.foldl Disjuncts.insert empty = { d with prints := [] } := by
  show d.children.foldl Disjuncts.insert (ofChildren []) = _
  rw [foldl_insert_isDisjunct [] hd.disjunct (by simpa using hd.countP_isCategories_le)]
  rw [List.nil_append, ofChildren, ← hd.categoryIndex_eq, ← halways]

end WellFormed

end Disjuncts

namespace Description

theorem allOf_children {children : List Description} {ps : List PrintRequest}
    (h : (conjunction children ps).WellFormed) : allOf children = .conjunction children [] := by
  cases h with
  | conjunction _ hconjunct _ =>
    unfold allOf
    rw [Conjuncts.foldl_insert_isConjunct hconjunct]
    rfl

theorem anyOf_children {children : List Description} {categoryIndex : Option Nat}
    {always : Bool} {ps : List PrintRequest}
    (h : (disjunction children categoryIndex always ps).WellFormed) (hne : children ≠ []) :
    anyOf children = .disjunction children categoryIndex always [] := by
  have hbuilt : (Disjuncts.mk children categoryIndex always ps).WellFormed :=
    Disjuncts.wellFormed_toDescription.1 h
  unfold anyOf
  rw [hbuilt.foldl_insert_children (h.always_eq_false hne)]
  rfl

end Description

end InlineQuery
