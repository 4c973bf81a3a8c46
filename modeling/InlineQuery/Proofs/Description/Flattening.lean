/-
Inserting a container is inserting what it was made of.

Let `e` be a container under construction and `x` a condition. One can put
`x` into `e` and then `e` into another container of the kind, or put first `e`
and then `x` into it. Both give the same container, down to the order of the
children and of the print requests (`Conjuncts.insert_toDescription_insert`,
`Disjuncts.insert_toDescription_insert`).

For conjunctions that is the associativity of lists. Disjunctions keep their
category lists together: wherever `x` brings further categories, they go to
the list that is there already, and that may be the list of `e` in one case
and an earlier one in the other. The point is that the list which is first to
arrive keeps its place. Categories that come later may hence be added to it
at once, or after everything else (`insertCategories_foldl_insert`), and one
after the other or together (`insertCategories_insertCategories`).
-/
import InlineQuery.Proofs.Description.WellFormed

namespace InlineQuery

open Description

namespace Conjuncts

theorem insert_toDescription_insert (c e : Conjuncts) (x : Description) :
    c.insert (e.insert x).toDescription = (c.insert e.toDescription).insert x := by
  cases x <;> simp [insert, toDescription]

end Conjuncts

namespace Disjuncts

variable {d e : Disjuncts} {x : Description}

-- ========================================================== print requests

@[simp] theorem addPrints_nil (d : Disjuncts) : d.addPrints [] = d := by
  simp [addPrints]

@[simp] theorem addPrints_addPrints (d : Disjuncts) (ps qs : List PrintRequest) :
    (d.addPrints ps).addPrints qs = d.addPrints (ps ++ qs) := by
  simp [addPrints]

@[simp] theorem makeTrue_addPrints (d : Disjuncts) (ps : List PrintRequest) :
    (d.addPrints ps).makeTrue = d.makeTrue.addPrints ps := rfl

theorem insertCategories_addPrints (d : Disjuncts) (ps : List PrintRequest) (pages : List Page)
    (hierarchy : Bool) :
    (d.addPrints ps).insertCategories pages hierarchy =
      (d.insertCategories pages hierarchy).addPrints ps := by
  unfold insertCategories addPrints
  dsimp only
  split <;> rfl

@[simp] theorem always_insertCategories (d : Disjuncts) (pages : List Page) (hierarchy : Bool) :
    (d.insertCategories pages hierarchy).always = d.always := by
  obtain ⟨_, _, _, _, _, _, heq⟩ | heq := d.insertCategories_cases pages hierarchy <;> rw [heq]

@[simp] theorem prints_insertCategories (d : Disjuncts) (pages : List Page) (hierarchy : Bool) :
    (d.insertCategories pages hierarchy).prints = d.prints := by
  obtain ⟨_, _, _, _, _, _, heq⟩ | heq := d.insertCategories_cases pages hierarchy <;> rw [heq]

-- ======================================================= single insertions

/-- A disjunction that is true takes the print requests and nothing else. -/
theorem insert_of_always (h : d.always = true) (x : Description) :
    d.insert x = d.addPrints x.prints := by
  have hprints (ps : List PrintRequest) : (d.addPrints ps).always = true := h
  cases x <;> simp only [insert, hprints, if_true] <;> rfl

theorem WellFormed.makeTrue_eq (hd : d.WellFormed) (h : d.always = true) : d.makeTrue = d := by
  obtain ⟨hchildren, hindex⟩ := hd.always h
  cases d
  cases h
  cases hchildren
  cases hindex
  rfl

theorem WellFormed.insert_thing (hd : d.WellFormed) (ps : List PrintRequest) :
    d.insert (.thing ps) = d.makeTrue.addPrints ps := by
  by_cases h : d.always = true
  · rw [insert_of_always h, hd.makeTrue_eq h]
    rfl
  · have halways : ¬ (d.addPrints ps).always = true := h
    simp only [Disjuncts.insert]
    rw [if_neg halways]
    rfl

theorem insert_categories (h : d.always = false) (pages : List Page) (hierarchy : Bool)
    (ps : List PrintRequest) :
    d.insert (.categories pages hierarchy ps) =
      (d.insertCategories pages hierarchy).addPrints ps := by
  have halways : ¬ (d.addPrints ps).always = true := by
    rw [show (d.addPrints ps).always = d.always from rfl, h]
    decide
  simp only [insert]
  rw [if_neg halways, insertCategories_addPrints]

/-- What is neither a category list nor taken apart becomes the last
disjunct. -/
theorem insert_eq_push (h : d.always = false) (hthing : x.isThing = false)
    (hdisjunction : x.isDisjunction = false) (hcategories : x.isCategories = false) :
    d.insert x = (d.push x).addPrints x.prints := by
  have halways (ps : List PrintRequest) : ¬ (d.addPrints ps).always = true := by
    rw [show (d.addPrints ps).always = d.always from rfl, h]
    decide
  cases x with
  | thing => cases hthing
  | disjunction => cases hdisjunction
  | categories => cases hcategories
  | _ =>
    simp only [insert]
    rw [if_neg (halways _)]
    rfl

/-- The print requests of what is not taken apart move to the disjunction. -/
theorem insert_withPrints (hthing : x.isThing = false) (hdisjunction : x.isDisjunction = false)
    (d : Disjuncts) : d.insert x = (d.insert (x.withPrints [])).addPrints x.prints := by
  by_cases h : d.always = true
  · rw [insert_of_always h, insert_of_always h, prints_withPrints, addPrints_nil]
  have h : d.always = false := by simpa using h
  by_cases hcategories : x.isCategories = true
  · obtain ⟨pages, hierarchy, ps, rfl⟩ := eq_categories_of_isCategories hcategories
    show _ = (d.insert (.categories pages hierarchy [])).addPrints ps
    rw [insert_categories h, insert_categories h, addPrints_nil]
  · have hcategories : x.isCategories = false := by simpa using hcategories
    rw [insert_eq_push h hthing hdisjunction hcategories,
      insert_eq_push h (by simpa) (by simpa) (by simpa), prints_withPrints, addPrints_nil]
    simp [push]

theorem insert_isDisjunct_eq_append (h : d.always = false) (hx : IsDisjunct x)
    (hcategories : x.isCategories = false) :
    d.insert x = { d with children := d.children ++ [x] } := by
  have hprints := withPrints_prints x
  rw [hx.prints] at hprints
  rw [insert_eq_push h hx.notThing hx.notDisjunction hcategories, hx.prints, addPrints_nil, push,
    hprints]

/-- A step of building that only adds children: it leaves the truth of the
disjunction and its print requests alone, and does not look at the latter. -/
structure AddsChildren (step : Disjuncts → Disjuncts) (d : Disjuncts) : Prop where
  always : (step d).always = d.always
  prints : (step d).prints = d.prints
  addPrints : ∀ ps, step (d.addPrints ps) = (step d).addPrints ps

theorem AddsChildren.makeTrue {step : Disjuncts → Disjuncts} (h : AddsChildren step d) :
    (step d).makeTrue = d.makeTrue := by
  unfold Disjuncts.makeTrue
  rw [h.prints]

theorem insert_isDisjunct_frame (hx : IsDisjunct x) (d : Disjuncts) :
    AddsChildren (fun d => d.insert x) d := by
  by_cases h : d.always = true
  · have halways (ps : List PrintRequest) : (d.addPrints ps).always = true := h
    have heq : d.insert x = d := by
      rw [insert_of_always h, hx.prints, addPrints_nil]
    refine ⟨congrArg Disjuncts.always heq, congrArg Disjuncts.prints heq, fun ps => ?_⟩
    show (d.addPrints ps).insert x = (d.insert x).addPrints ps
    rw [heq, insert_of_always (halways ps), hx.prints, addPrints_nil]
  have h : d.always = false := by simpa using h
  have halways (ps : List PrintRequest) : (d.addPrints ps).always = false := h
  by_cases hcategories : x.isCategories = true
  · obtain ⟨pages, hierarchy, qs, rfl⟩ := eq_categories_of_isCategories hcategories
    have hqs : qs = [] := hx.prints
    subst hqs
    have heq : d.insert (.categories pages hierarchy []) = d.insertCategories pages hierarchy := by
      rw [insert_categories h, addPrints_nil]
    refine ⟨?_, ?_, fun ps => ?_⟩
    · exact (congrArg Disjuncts.always heq).trans (d.always_insertCategories pages hierarchy)
    · exact (congrArg Disjuncts.prints heq).trans (d.prints_insertCategories pages hierarchy)
    · show (d.addPrints ps).insert _ = (d.insert _).addPrints ps
      rw [heq, insert_categories (halways ps), addPrints_nil, insertCategories_addPrints]
  · have hcategories : x.isCategories = false := by simpa using hcategories
    have heq := insert_isDisjunct_eq_append h hx hcategories
    refine ⟨?_, ?_, fun ps => ?_⟩
    · exact (congrArg Disjuncts.always heq).trans rfl
    · exact (congrArg Disjuncts.prints heq).trans rfl
    · show (d.addPrints ps).insert x = (d.insert x).addPrints ps
      rw [heq, insert_isDisjunct_eq_append (halways ps) hx hcategories]
      rfl

theorem foldl_insert_frame {xs : List Description} (hxs : ∀ x ∈ xs, IsDisjunct x)
    (d : Disjuncts) : AddsChildren (fun d => xs.foldl insert d) d := by
  induction xs generalizing d with
  | nil => exact ⟨rfl, rfl, fun _ => rfl⟩
  | cons x rest ih =>
    have hx := insert_isDisjunct_frame (hxs x List.mem_cons_self) d
    have hrest := ih (fun y hy => hxs y (List.mem_cons_of_mem x hy)) (d.insert x)
    refine ⟨hrest.always.trans hx.always, hrest.prints.trans hx.prints, fun ps => ?_⟩
    show rest.foldl insert ((d.addPrints ps).insert x) = _
    rw [hx.addPrints ps]
    exact hrest.addPrints ps

theorem foldl_insert_of_always {xs : List Description} (hxs : ∀ x ∈ xs, IsDisjunct x)
    (h : d.always = true) : xs.foldl insert d = d := by
  induction xs with
  | nil => rfl
  | cons x rest ih =>
    rw [List.foldl_cons, insert_of_always h, (hxs x List.mem_cons_self).prints, addPrints_nil]
    exact ih fun y hy => hxs y (List.mem_cons_of_mem x hy)

/-- A disjunction is inserted child by child, unless it is true. -/
theorem WellFormed.insert_toDescription (hd : d.WellFormed) (he : e.WellFormed) :
    d.insert e.toDescription =
      if e.always then d.makeTrue.addPrints e.prints
      else (e.children.foldl Disjuncts.insert d).addPrints e.prints := by
  by_cases h : d.always = true
  · rw [insert_of_always h, hd.makeTrue_eq h, foldl_insert_of_always he.disjunct h]
    split <;> rfl
  · have halways : ¬ (d.addPrints e.prints).always = true := h
    simp only [toDescription, Disjuncts.insert]
    rw [if_neg halways, insertAll_eq_foldl, (foldl_insert_frame he.disjunct d).addPrints]
    rfl

-- ============================================== where category lists land

/-- Categories are added to the list that is there one list after the other,
or all of them together. -/
theorem WellFormed.insertCategories_insertCategories (hd : d.WellFormed) (pages more : List Page)
    (hierarchy moreHierarchy : Bool) :
    (d.insertCategories pages hierarchy).insertCategories more moreHierarchy =
      d.insertCategories (pages ++ more) (hierarchy || moreHierarchy) := by
  cases hindex : d.categoryIndex with
  | some i =>
    obtain ⟨old, oldHierarchy, hold⟩ := hd.categories_of_index hindex
    have hlt := (List.getElem?_eq_some_iff.1 hold).1
    rw [insertCategories_of_some hindex hold pages,
      insertCategories_of_some hindex hold (pages ++ more)]
    generalize hnew : Description.categories (old ++ pages) (oldHierarchy || hierarchy) [] = new
    have hmerged : (d.children.set i new)[i]? =
        some (.categories (old ++ pages) (oldHierarchy || hierarchy) []) := by
      simp [hlt, hnew]
    rw [insertCategories_of_some (d := { d with children := d.children.set i new }) hindex hmerged]
    simp [Bool.or_assoc]
  | none =>
    rw [insertCategories_of_none hindex pages, insertCategories_of_none hindex (pages ++ more)]
    have hlast (new : Description) : (d.children ++ [new])[d.children.length]? = some new := by simp
    refine (insertCategories_of_some (d := ⟨_, _, _, _⟩) rfl (hlast _) _ _).trans ?_
    simp

/-- Once there is a list, further categories do not care about what was
inserted behind it. -/
theorem WellFormed.insertCategories_foldl_insert (hd : d.WellFormed) (halways : d.always = false)
    {i : Nat} (hindex : d.categoryIndex = some i) {back : List Description}
    (hback : ∀ x ∈ back, IsDisjunct x ∧ x.isCategories = false) (pages : List Page)
    (hierarchy : Bool) :
    (back.foldl Disjuncts.insert d).insertCategories pages hierarchy =
      back.foldl Disjuncts.insert (d.insertCategories pages hierarchy) := by
  have happend (d : Disjuncts) (halways : d.always = false) :
      back.foldl Disjuncts.insert d = { d with children := d.children ++ back } := by
    induction back generalizing d with
    | nil => simp
    | cons x rest ih =>
      obtain ⟨hx, hcategories⟩ := hback x List.mem_cons_self
      rw [List.foldl_cons, insert_isDisjunct_eq_append halways hx hcategories]
      rw [ih (fun y hy => hback y (List.mem_cons_of_mem x hy))
        { d with children := d.children ++ [x] } halways]
      simp
  obtain ⟨old, oldHierarchy, hold⟩ := hd.categories_of_index hindex
  have hlt := (List.getElem?_eq_some_iff.1 hold).1
  have hkept : (d.children ++ back)[i]? = some (.categories old oldHierarchy []) := by
    rw [List.getElem?_append_left hlt]
    exact hold
  rw [happend d halways, happend _ (by simpa using halways),
    insertCategories_of_some hindex hold]
  rw [insertCategories_of_some (d := { d with children := d.children ++ back }) hindex hkept]
  simp [List.set_append_left _ _ hlt]

/-- There is a list after categories were inserted. -/
theorem exists_categoryIndex_insertCategories (d : Disjuncts) (pages : List Page)
    (hierarchy : Bool) : ∃ i, (d.insertCategories pages hierarchy).categoryIndex = some i := by
  obtain ⟨i, _, _, _, hindex, _, heq⟩ | heq := d.insertCategories_cases pages hierarchy
  · exact ⟨i, by rw [heq]; exact hindex⟩
  · exact ⟨d.children.length, by rw [heq]⟩

/-- The category list of a disjunction, and its other children. -/
theorem WellFormed.split_categories (he : e.WellFormed) {i : Nat}
    (hindex : e.categoryIndex = some i) :
    ∃ front pages hierarchy back,
      e.children = front ++ .categories pages hierarchy [] :: back ∧ front.length = i ∧
        ∀ x ∈ back, IsDisjunct x ∧ x.isCategories = false := by
  obtain ⟨pages, hierarchy, hlist⟩ := he.categories_of_index hindex
  obtain ⟨hlt, hget⟩ := List.getElem?_eq_some_iff.1 hlist
  refine ⟨e.children.take i, pages, hierarchy, e.children.drop (i + 1), ?_, ?_, ?_⟩
  · rw [← hget, ← List.drop_eq_getElem_cons hlt, List.take_append_drop]
  · rw [List.length_take, Nat.min_eq_left (Nat.le_of_lt hlt)]
  · intro x hx
    refine ⟨he.disjunct x (List.mem_of_mem_drop hx), ?_⟩
    by_cases hcategories : x.isCategories = true
    · -- a second list would stand where the first one does
      obtain ⟨j, hj⟩ := List.mem_iff_getElem?.1 hx
      rw [List.getElem?_drop] at hj
      have := he.categories_unique hlist hj rfl hcategories
      omega
    · simpa using hcategories

/-- A list with further categories, or the categories after everything that
stands behind the list. -/
theorem WellFormed.insert_merged (hd : d.WellFormed) (halways : d.always = false)
    {old : List Page} (hold : old ≠ []) (pages : List Page) (oldHierarchy hierarchy : Bool)
    {back : List Description} (hback : ∀ x ∈ back, IsDisjunct x ∧ x.isCategories = false) :
    back.foldl Disjuncts.insert
        (d.insert (.categories (old ++ pages) (oldHierarchy || hierarchy) [])) =
      (back.foldl Disjuncts.insert (d.insert (.categories old oldHierarchy []))).insert
        (.categories pages hierarchy []) := by
  have hlist : (d.insertCategories old oldHierarchy).WellFormed :=
    hd.insertCategories halways oldHierarchy hold
  have hlistAlways : (d.insertCategories old oldHierarchy).always = false := by
    rw [always_insertCategories, halways]
  obtain ⟨i, hi⟩ := d.exists_categoryIndex_insertCategories old oldHierarchy
  have hlast :
      (back.foldl Disjuncts.insert (d.insertCategories old oldHierarchy)).always = false := by
    rw [(foldl_insert_frame (fun x hx => (hback x hx).1) _).always, hlistAlways]
  calc back.foldl Disjuncts.insert
        (d.insert (.categories (old ++ pages) (oldHierarchy || hierarchy) []))
      = back.foldl Disjuncts.insert
          ((d.insertCategories old oldHierarchy).insertCategories pages hierarchy) := by
        rw [insert_categories halways, addPrints_nil, hd.insertCategories_insertCategories]
    _ = (back.foldl Disjuncts.insert
          (d.insertCategories old oldHierarchy)).insertCategories pages hierarchy := by
        rw [hlist.insertCategories_foldl_insert hlistAlways hi hback]
    _ = (back.foldl Disjuncts.insert (d.insert (.categories old oldHierarchy []))).insert
          (.categories pages hierarchy []) := by
        rw [insert_categories halways, addPrints_nil, insert_categories hlast, addPrints_nil]

-- ================================================ one container in another

/-- Categories for a disjunction that is going to be inserted child by child:
they can as well come after all of its children. -/
theorem WellFormed.foldl_insert_children_insertCategories (hd : d.WellFormed) (he : e.WellFormed)
    (halways : d.always = false) (pages : List Page) (hierarchy : Bool) :
    (e.insertCategories pages hierarchy).children.foldl Disjuncts.insert d =
      (e.children.foldl Disjuncts.insert d).insert (.categories pages hierarchy []) := by
  cases hindex : e.categoryIndex with
  | none =>
    rw [insertCategories_of_none hindex, List.foldl_append]
    rfl
  | some i =>
    obtain ⟨front, old, oldHierarchy, back, hsplit, rfl, hback⟩ := he.split_categories hindex
    have hold : e.children[front.length]? = some (.categories old oldHierarchy []) := by
      rw [hsplit]
      simp
    have holdpages : old ≠ [] := by
      have hwf := he.wellFormed _ (List.mem_of_getElem? hold)
      cases hwf with
      | categories _ _ hpages => exact hpages
    have hfront : ∀ y ∈ front, y ∈ e.children := by
      intro y hy
      rw [hsplit]
      exact List.mem_append_left _ hy
    have hfirst : (front.foldl Disjuncts.insert d).WellFormed :=
      hd.foldl_insert fun y hy => he.wellFormed y (hfront y hy)
    have hfirstAlways : (front.foldl Disjuncts.insert d).always = false := by
      rw [(foldl_insert_frame (fun y hy => he.disjunct y (hfront y hy)) d).always, halways]
    rw [insertCategories_of_some hindex hold, hsplit]
    simp only [List.set_append_right _ _ (Nat.le_refl _), Nat.sub_self, List.set_cons_zero,
      List.foldl_append, List.foldl_cons]
    exact hfirst.insert_merged hfirstAlways holdpages pages oldHierarchy hierarchy hback

/-- One more child for a disjunction that is going to be inserted child by
child: it can as well come after the others. -/
theorem WellFormed.foldl_insert_children_insert (hd : d.WellFormed) (he : e.WellFormed)
    (halways : e.always = false) (hx : IsDisjunct x) (hxwf : x.WellFormed) :
    (e.insert x).children.foldl Disjuncts.insert d =
      (e.children.foldl Disjuncts.insert d).insert x := by
  by_cases h : d.always = true
  · -- nothing is inserted at all
    rw [foldl_insert_of_always he.disjunct h, foldl_insert_of_always (he.insert hxwf).disjunct h,
      insert_of_always h, hx.prints, addPrints_nil]
  have h : d.always = false := by simpa using h
  by_cases hcategories : x.isCategories = true
  · obtain ⟨pages, hierarchy, ps, rfl⟩ := eq_categories_of_isCategories hcategories
    have hps : ps = [] := hx.prints
    subst hps
    rw [insert_categories halways, addPrints_nil]
    exact hd.foldl_insert_children_insertCategories he h pages hierarchy
  · rw [insert_isDisjunct_eq_append halways hx (by simpa using hcategories), List.foldl_append]
    rfl

theorem WellFormed.foldl_insert_children_foldl_insert (hd : d.WellFormed) (he : e.WellFormed)
    (halways : e.always = false) {xs : List Description}
    (hxs : ∀ x ∈ xs, IsDisjunct x ∧ x.WellFormed) :
    (xs.foldl Disjuncts.insert e).children.foldl Disjuncts.insert d =
      xs.foldl Disjuncts.insert (e.children.foldl Disjuncts.insert d) := by
  induction xs generalizing e with
  | nil => rfl
  | cons x rest ih =>
    obtain ⟨hx, hxwf⟩ := hxs x List.mem_cons_self
    have hnext : (e.insert x).always = false := by
      rw [(insert_isDisjunct_frame hx e).always, halways]
    rw [List.foldl_cons, List.foldl_cons,
      ih (he.insert hxwf) hnext fun y hy => hxs y (List.mem_cons_of_mem x hy),
      hd.foldl_insert_children_insert he halways hx hxwf]

/-- What a condition does to a disjunction: it makes it true, or it adds a
list of disjuncts. -/
theorem insert_cases (hx : x.WellFormed) :
    (∀ d : Disjuncts, d.WellFormed → d.insert x = d.makeTrue.addPrints x.prints) ∨
      ∃ xs : List Description, (∀ y ∈ xs, IsDisjunct y ∧ y.WellFormed) ∧
        ∀ d : Disjuncts, d.WellFormed →
          d.insert x = (xs.foldl Disjuncts.insert d).addPrints x.prints := by
  by_cases hthing : x.isThing = true
  · cases x with
    | thing ps => exact .inl fun d hd => hd.insert_thing ps
    | _ => cases hthing
  by_cases hdisjunction : x.isDisjunction = true
  · cases x with
    | disjunction inner categoryIndex always ps =>
      have hinner : (Disjuncts.mk inner categoryIndex always ps).WellFormed :=
        wellFormed_toDescription.1 hx
      cases always with
      | true => exact .inl fun d hd => hd.insert_toDescription hinner
      | false =>
        exact .inr ⟨inner, fun y hy => ⟨hinner.disjunct y hy, hinner.wellFormed y hy⟩,
          fun d hd => hd.insert_toDescription hinner⟩
    | _ => cases hdisjunction
  · simp only [Bool.not_eq_true] at hthing hdisjunction
    have hdisjunct : IsDisjunct (x.withPrints []) := ⟨by simpa, by simpa, by simp⟩
    refine .inr ⟨[x.withPrints []], ?_, fun d _ => ?_⟩
    · exact List.forall_mem_singleton.2 ⟨hdisjunct, wellFormed_withPrints [] hx⟩
    · exact insert_withPrints hthing hdisjunction d

/-- A disjunction that takes in a condition and is then inserted, or the
disjunction and then the condition. -/
theorem WellFormed.insert_toDescription_insert (hd : d.WellFormed) (he : e.WellFormed)
    (hx : x.WellFormed) :
    d.insert (e.insert x).toDescription = (d.insert e.toDescription).insert x := by
  rw [hd.insert_toDescription (he.insert hx), hd.insert_toDescription he]
  by_cases halways : e.always = true
  · -- neither `d` nor `e` has a place for it
    have htrue : (d.makeTrue.addPrints e.prints).always = true := rfl
    have hkept : (e.addPrints x.prints).always = true := halways
    rw [insert_of_always halways, if_pos halways, if_pos hkept, insert_of_always htrue,
      addPrints_addPrints]
    rfl
  · have hfold : (e.children.foldl Disjuncts.insert d).WellFormed :=
      hd.foldl_insert he.wellFormed
    have hframe := foldl_insert_frame he.disjunct d
    rw [if_neg halways]
    obtain hx | ⟨xs, hxs, hx⟩ := insert_cases hx
    · have htrue : (e.makeTrue.addPrints x.prints).always = true := rfl
      rw [hx e he, hx _ (hfold.addPrints _), if_pos htrue, makeTrue_addPrints, hframe.makeTrue,
        addPrints_addPrints]
      rfl
    · have halways : e.always = false := by simpa using halways
      have hxframe := foldl_insert_frame (fun y hy => (hxs y hy).1) e
      have hnot : ¬ ((xs.foldl Disjuncts.insert e).addPrints x.prints).always = true := by
        show ¬ (xs.foldl Disjuncts.insert e).always = true
        rw [hxframe.always, halways]
        decide
      rw [hx e he, hx _ (hfold.addPrints _), if_neg hnot,
        (foldl_insert_frame (fun y hy => (hxs y hy).1) _).addPrints,
        ← hd.foldl_insert_children_foldl_insert he halways hxs, addPrints_addPrints]
      show Disjuncts.addPrints _ ((xs.foldl Disjuncts.insert e).prints ++ x.prints) = _
      rw [hxframe.prints]
      rfl

end Disjuncts

end InlineQuery
