/-
Pruning only ever weakens a query.

A condition that is cut off asks for less, and so more satisfies what is left.
That is plain for a conjunct. A disjunct that was cut off would ask for more
if it were simply missing, but it is replaced by the condition that always
holds, and building makes the whole disjunction true with it
(`holds_rebuild`). What is then left of the container is nothing, one child or
several, and each of them holds where the container does
(`holds_pruneContainer`).

The exception are category lists. One of which some categories are kept is a
union of fewer sets. `Unsplit` says that no list of a tree can be split,
because all of them cost one.
-/
import InlineQuery.Proofs.Description.Meaning
import InlineQuery.Proofs.Prune.WellFormed

namespace InlineQuery

universe u

namespace Description

/-- The node is no category list, or one that expands its hierarchy or names
a single category. -/
def Whole : Description → Prop
  | .categories pages hierarchy _ => hierarchy = true ∨ pages.length = 1
  | _ => True

/-- No category list in the tree can be split. -/
def Unsplit (d : Description) : Prop := d.Throughout Whole

/-- A list that is not split costs one. -/
theorem Unsplit.size_eq {pages : List Page} {hierarchy : Bool} {ps : List PrintRequest}
    (h : (categories pages hierarchy ps).Unsplit) : (categories pages hierarchy ps).size = 1 := by
  rw [size]
  obtain hhierarchy | hlength := h _ .root
  · rw [if_pos hhierarchy]
  · rw [hlength, ite_self]

variable {Entity : Type u} {I : Interpretation Entity} {e : Entity} {d : Description}

-- ============================================================== containers

/-- A disjunction that has children is the union of them. -/
theorem holds_disjunction_of_ne_nil {children : List Description} {categoryIndex : Option Nat}
    {always : Bool} {ps : List PrintRequest}
    (hd : (disjunction children categoryIndex always ps).WellFormed) (hne : children ≠ []) :
    (disjunction children categoryIndex always ps).Holds I e ↔
      ∃ child ∈ children, child.Holds I e := by
  rw [holds_disjunction, hd.always_eq_false hne]
  exact or_iff_right (by decide)

/-- A container of one child means what the child means. -/
theorem holds_of_single {rebuilt child : Description} (hrebuilt : rebuilt.WellFormed)
    (hsingle : rebuilt.children = [child]) (h : rebuilt.Holds I e) : child.Holds I e := by
  cases rebuilt with
  | conjunction children ps =>
    have hchildren : children = [child] := hsingle
    subst hchildren
    exact holds_conjunction.1 h child (List.mem_singleton_self child)
  | disjunction children categoryIndex always ps =>
    have hchildren : children = [child] := hsingle
    subst hchildren
    obtain ⟨x, hx, hholds⟩ :=
      (holds_disjunction_of_ne_nil hrebuilt (List.cons_ne_nil child [])).1 h
    rwa [List.mem_singleton.1 hx] at hholds
  | _ => cases hsingle

/-- Whatever is left of a container holds where it held after it was put
together again. -/
theorem holds_pruneContainer (d : Description) {rebuilt : Description}
    (hrebuilt : rebuilt.WellFormed) (h : rebuilt.Holds I e) (budget : Budget)
    (pruned : PrunedChildren) :
    (pruneContainer d rebuilt budget pruned).description.Holds I e :=
  pruneContainer_induct (P := fun x => x.Holds I e) (fun _ ps => holds_thing ps)
    (fun _ hsingle => holds_of_single hrebuilt hsingle h) (fun _ => h)
    (fun x requests hx => (holds_withPrints requests x).2 hx) d budget pruned

/-- A container whose children were weakened holds where it held before. -/
theorem holds_rebuild (hkind : IsContainer d) (hd : d.WellFormed) (hne : d.children ≠ [])
    (hchildren : ∀ child ∈ d.children, child.Holds I e →
      ∀ budget, (prune budget child).description.Holds I e)
    (h : d.Holds I e) (depth : Nat) (budget : Budget) :
    (d.rebuild (pruneAll depth budget d.children).children).Holds I e := by
  cases d with
  | conjunction children ps =>
    have hall := holds_conjunction.1 h
    exact (holds_allOf _).2
      (forall_pruneAll (fun c hc => hchildren c hc (hall c hc)) depth budget)
  | disjunction children categoryIndex always ps =>
    obtain ⟨child, hchild, hholds⟩ := (holds_disjunction_of_ne_nil hd hne).1 h
    exact (holds_anyOf _).2 (exists_pruneAll hchild (hchildren child hchild hholds) depth budget)
  | _ => cases hkind

-- ================================================================= pruning

/-- Pruning weakens: whatever satisfied a tree without lists that can be
split satisfies what is left of it, in every interpretation and at every
budget. -/
theorem holds_prune (hd : d.WellFormed) (hunsplit : d.Unsplit) (h : d.Holds I e)
    (budget : Budget) : (prune budget d).description.Holds I e := by
  induction d using prune_induct generalizing budget e with
  | thing ps => exact h
  | elementary d hkind =>
    rw [prune_elementary hkind, keepOrDrop]
    split
    · exact h
    · exact holds_thing d.prints
  | categories pages hierarchy ps =>
    have hsize := hunsplit.size_eq
    rw [prune, pruneCategories]
    dsimp only
    rw [hsize]
    split
    · exact h
    · -- a budget that does not suffice for one is a budget of nothing
      rw [if_pos (by omega)]
      exact holds_thing ps
  | someProperty property inner ps ih =>
    rw [prune]
    split
    · exact holds_thing ps
    · cases hd with
      | someProperty _ _ hinner =>
        rw [Holds] at h ⊢
        obtain ⟨value, hrelated, hholds⟩ := h
        exact ⟨value, hrelated, ih hinner (throughout_someProperty.1 hunsplit).2 hholds _⟩
  | container d hkind ih =>
    have hchildren : ∀ child ∈ d.children, ∀ budget, (prune budget child).description.WellFormed :=
      fun child hchild => wellFormed_prune (hd.of_mem_children hchild)
    rw [prune_container hkind]
    split
    · exact h
    · next hne =>
      split
      · exact holds_thing d.prints
      · have hholds := holds_rebuild hkind hd (by simpa using hne)
          (fun child hchild hholds => ih child hchild (hd.of_mem_children hchild)
            (hunsplit.of_mem_children hchild) hholds) h budget.depth budget
        have hrebuilt := hkind.wellFormed_rebuild (forall_pruneAll hchildren budget.depth budget)
        exact holds_pruneContainer d hrebuilt hholds budget _

/-- A conjunct that is too deep is cut off, and the disjunction beside it is
what is left. -/
theorem holds_prune_disjunction :
    let I : Interpretation Bool :=
      { value := fun _ _ _ e => e = false
        category := fun _ e => e = true
        inNamespace := fun _ _ _ => False
        concept := fun _ _ => False
        related := fun _ e value => e ≠ value }
    let property : Property := ⟨"Located in".toList, false⟩
    let asia := value (.page (Page.main "Asia".toList)) (some property) .equal []
    let city := categories [Page.category "City".toList] false []
    let old := concept (Page.concept "Old".toList) []
    let either := disjunction [city, old] (some 0) false []
    let d := conjunction [someProperty property asia [], either] []
    ((d.WellFormed ∧ d.Unsplit) ∧ d.Holds I true) ∧
      (prune ⟨2, 0⟩ d).description = either ∧ (prune ⟨2, 0⟩ d).description.Holds I true := by
  intro I property asia city old either d
  have heither : either.WellFormed := by
    refine .disjunction _ ?_ ?_ ?_ (fun h => nomatch h)
    · exact List.forall_mem_cons.2 ⟨⟨rfl, rfl, rfl⟩, List.forall_mem_singleton.2 ⟨rfl, rfl, rfl⟩⟩
    · exact List.forall_mem_cons.2 ⟨.categories _ _ (by simp),
        List.forall_mem_singleton.2 (.concept _ _)⟩
    · intro i
      match i with
      | 0 => simp [city, isCategories]
      | 1 => simp [old, isCategories]
      | i + 2 => simp
  have hd : d.WellFormed := by
    refine .conjunction _ ?_ ?_
    · exact List.forall_mem_cons.2 ⟨⟨rfl, rfl, rfl⟩, List.forall_mem_singleton.2 ⟨rfl, rfl, rfl⟩⟩
    · exact List.forall_mem_cons.2 ⟨.someProperty _ _ (.value _ _ _ _),
        List.forall_mem_singleton.2 heither⟩
  have hunsplit : d.Unsplit := by
    refine throughout_conjunction.2 ⟨trivial, List.forall_mem_cons.2 ⟨?_,
      List.forall_mem_singleton.2 ?_⟩⟩
    · exact throughout_someProperty.2 ⟨trivial, (throughout_leaf rfl rfl).2 trivial⟩
    · exact throughout_disjunction.2 ⟨trivial, List.forall_mem_cons.2
        ⟨(throughout_leaf rfl rfl).2 (.inr rfl),
          List.forall_mem_singleton.2 ((throughout_leaf rfl rfl).2 trivial)⟩⟩
  have hholds : d.Holds I true := by
    refine holds_conjunction.2 (List.forall_mem_cons.2 ⟨?_, List.forall_mem_singleton.2 ?_⟩)
    · exact ⟨false, by decide, rfl⟩
    · exact holds_disjunction.2 (.inr ⟨city, List.mem_cons_self, _, List.mem_cons_self, rfl⟩)
  exact ⟨⟨⟨hd, hunsplit⟩, hholds⟩, rfl, holds_prune hd hunsplit hholds ⟨2, 0⟩⟩

end Description

end InlineQuery
