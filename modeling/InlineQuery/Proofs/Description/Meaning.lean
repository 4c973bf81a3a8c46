/-
What a tree means: the set of pages, or of whatever else there is, that
satisfy it.

An `Interpretation` says which entities satisfy the elementary conditions,
and which of them a property relates. It may say anything, so that what is
proved of all interpretations is proved of any wiki. That a category list
expands its hierarchy makes no difference to its meaning here: an
interpretation that counts the members of subcategories as members satisfies
both.

# Building keeps the meaning

Containers are taken apart, merged and cleared while they are built; what
they mean is not affected. One more conjunct is an intersection
(`Conjuncts.holds_insert`), one more disjunct a union
(`Disjuncts.holds_insert`), and hence the builders are the intersection and
the union of everything they are given (`holds_allOf`, `holds_anyOf`). None of
it needs well-formed trees.
-/
import InlineQuery.Proofs.Description.Children

namespace InlineQuery

universe u

/-- A world that queries are asked of: what satisfies the elementary
conditions, and what is related by a property to what. -/
structure Interpretation (Entity : Type u) where
  value : Item → Option Property → Comparator → Entity → Prop
  category : Page → Entity → Prop
  inNamespace : NamespaceId → Text → Entity → Prop
  concept : Page → Entity → Prop
  related : Property → Entity → Entity → Prop

namespace Description

variable {Entity : Type u} (I : Interpretation Entity)

mutual

/-- The entity satisfies the condition. -/
def Holds : Description → Entity → Prop
  | .thing _, _ => True
  | .value item property comparator _, e => I.value item property comparator e
  | .categories pages _ _, e => ∃ page ∈ pages, I.category page e
  | .inNamespace id label _, e => I.inNamespace id label e
  | .concept page _, e => I.concept page e
  | .someProperty property inner _, e => ∃ value, I.related property e value ∧ Holds inner value
  | .conjunction children _, e => AllHold children e
  | .disjunction children _ always _, e => always = true ∨ OneHolds children e

/-- The entity satisfies all of the conditions. -/
def AllHold : List Description → Entity → Prop
  | [], _ => True
  | child :: rest, e => Holds child e ∧ AllHold rest e

/-- The entity satisfies one of the conditions. -/
def OneHolds : List Description → Entity → Prop
  | [], _ => False
  | child :: rest, e => Holds child e ∨ OneHolds rest e

end

variable {I} {e : Entity}

theorem allHold_iff {children : List Description} :
    AllHold I children e ↔ ∀ child ∈ children, child.Holds I e := by
  induction children with
  | nil => simp [AllHold]
  | cons child rest ih => rw [AllHold, ih, List.forall_mem_cons]

theorem oneHolds_iff {children : List Description} :
    OneHolds I children e ↔ ∃ child ∈ children, child.Holds I e := by
  induction children with
  | nil => simp [OneHolds]
  | cons child rest ih => simp only [OneHolds, ih, List.mem_cons, exists_eq_or_imp]

@[simp] theorem holds_thing (ps : List PrintRequest) : (thing ps).Holds I e := trivial

theorem holds_categories {pages : List Page} {hierarchy : Bool} {ps : List PrintRequest} :
    (categories pages hierarchy ps).Holds I e ↔ ∃ page ∈ pages, I.category page e := by
  rw [Holds]

theorem holds_conjunction {children : List Description} {ps : List PrintRequest} :
    (conjunction children ps).Holds I e ↔ ∀ child ∈ children, child.Holds I e := by
  rw [Holds, allHold_iff]

theorem holds_disjunction {children : List Description} {categoryIndex : Option Nat}
    {always : Bool} {ps : List PrintRequest} :
    (disjunction children categoryIndex always ps).Holds I e ↔
      always = true ∨ ∃ child ∈ children, child.Holds I e := by
  rw [Holds, oneHolds_iff]

/-- Print requests have no meaning. -/
@[simp] theorem holds_withPrints (requests : List PrintRequest) (d : Description) :
    (d.withPrints requests).Holds I e ↔ d.Holds I e := by
  cases d <;> simp only [withPrints, Holds]

end Description

open Description

variable {Entity : Type u} {I : Interpretation Entity} {e : Entity}

-- ============================================================ conjunctions

namespace Conjuncts

theorem holds_toDescription {c : Conjuncts} :
    c.toDescription.Holds I e ↔ ∀ child ∈ c.children, child.Holds I e := holds_conjunction

/-- One more conjunct is an intersection. -/
theorem holds_insert (c : Conjuncts) (d : Description) :
    (c.insert d).toDescription.Holds I e ↔ c.toDescription.Holds I e ∧ d.Holds I e := by
  cases d with
  | thing ps => simp [holds_toDescription, insert]
  | conjunction inner ps =>
    rw [holds_toDescription, holds_toDescription, holds_conjunction]
    exact List.forall_mem_append
  | _ =>
    rw [holds_toDescription, holds_toDescription]
    refine List.forall_mem_append.trans (and_congr_right fun _ => ?_)
    exact List.forall_mem_singleton.trans (holds_withPrints _ _)

theorem holds_foldl_insert (children : List Description) (c : Conjuncts) :
    (children.foldl insert c).toDescription.Holds I e ↔
      c.toDescription.Holds I e ∧ ∀ child ∈ children, child.Holds I e := by
  induction children generalizing c with
  | nil => simp
  | cons child rest ih => rw [List.foldl_cons, ih, holds_insert, and_assoc, List.forall_mem_cons]

end Conjuncts

-- ============================================================ disjunctions

namespace Disjuncts

theorem holds_toDescription {d : Disjuncts} :
    d.toDescription.Holds I e ↔ d.always = true ∨ ∃ child ∈ d.children, child.Holds I e :=
  holds_disjunction

theorem holds_of_always {d : Disjuncts} (h : d.always = true) : d.toDescription.Holds I e :=
  holds_toDescription.2 (.inl h)

/-- An element that is replaced by one with an alternative `Q`. -/
private theorem exists_mem_set {α : Type} {P : α → Prop} {Q : Prop} {xs : List α} {i : Nat}
    {old new : α} (hold : xs[i]? = some old) (hnew : P new ↔ P old ∨ Q) :
    (∃ x ∈ xs.set i new, P x) ↔ (∃ x ∈ xs, P x) ∨ Q := by
  induction xs generalizing i with
  | nil => simp at hold
  | cons a rest ih =>
    cases i with
    | zero =>
      simp only [List.getElem?_cons_zero, Option.some.injEq] at hold
      subst hold
      simp only [List.set_cons_zero, List.mem_cons, exists_eq_or_imp, hnew]
      exact or_right_comm
    | succ i =>
      simp only [List.set_cons_succ, List.mem_cons, exists_eq_or_imp, or_assoc]
      exact or_congr_right (ih (by simpa using hold))

theorem holds_insertCategories (d : Disjuncts) (pages : List Page) (hierarchy : Bool) :
    (d.insertCategories pages hierarchy).toDescription.Holds I e ↔
      d.toDescription.Holds I e ∨ ∃ page ∈ pages, I.category page e := by
  rw [holds_toDescription, holds_toDescription]
  obtain ⟨i, old, oldHierarchy, ps, -, hold, heq⟩ | heq := d.insertCategories_cases pages hierarchy
  · rw [heq, or_assoc]
    refine or_congr_right (exists_mem_set hold ?_)
    rw [holds_categories, holds_categories]
    simp only [List.mem_append, or_and_right, exists_or]
  · rw [heq, or_assoc]
    refine or_congr_right ?_
    simp only [List.mem_append, List.mem_singleton, or_and_right, exists_or, exists_eq_left,
      holds_categories]

theorem holds_push (d : Disjuncts) (child : Description) :
    (d.push child).toDescription.Holds I e ↔ d.toDescription.Holds I e ∨ child.Holds I e := by
  rw [holds_toDescription, holds_toDescription, or_assoc]
  refine or_congr_right ?_
  simp only [push, List.mem_append, List.mem_singleton, or_and_right, exists_or, exists_eq_left,
    holds_withPrints]

/-- Disjuncts that are inserted one after the other, if each of them is a
union. -/
theorem foldl_insert_of_holds {children : List Description}
    (h : ∀ child ∈ children, ∀ d : Disjuncts,
      (d.insert child).toDescription.Holds I e ↔ d.toDescription.Holds I e ∨ child.Holds I e)
    (d : Disjuncts) :
    (children.foldl insert d).toDescription.Holds I e ↔
      d.toDescription.Holds I e ∨ ∃ child ∈ children, child.Holds I e := by
  induction children generalizing d with
  | nil => simp
  | cons child rest ih =>
    rw [List.foldl_cons, ih fun c hc => h c (List.mem_cons_of_mem child hc),
      h child List.mem_cons_self, or_assoc]
    simp only [List.mem_cons, exists_eq_or_imp]

/-- One more disjunct is a union. -/
theorem holds_insert (d : Disjuncts) (x : Description) :
    (d.insert x).toDescription.Holds I e ↔ d.toDescription.Holds I e ∨ x.Holds I e := by
  induction x using Description.induct generalizing d with
  | thing ps =>
    simp only [insert]
    split
    · next halways => exact iff_of_true (holds_of_always halways) (.inr trivial)
    · exact iff_of_true (holds_of_always rfl) (.inr trivial)
  | categories pages hierarchy ps =>
    simp only [insert]
    split
    · next halways => exact iff_of_true (holds_of_always halways) (.inl (holds_of_always halways))
    · rw [holds_insertCategories, holds_categories]
      exact Iff.rfl
  | disjunction inner categoryIndex always ps ih =>
    simp only [insert]
    split
    · next halways => exact iff_of_true (holds_of_always halways) (.inl (holds_of_always halways))
    · split
      · next halways =>
        exact iff_of_true (holds_of_always rfl) (.inr (holds_disjunction.2 (.inl halways)))
      · next halways =>
        rw [insertAll_eq_foldl, foldl_insert_of_holds ih, holds_disjunction]
        exact or_congr_right (or_iff_right halways).symm
  | _ =>
    simp only [insert]
    split
    · next halways => exact iff_of_true (holds_of_always halways) (.inl (holds_of_always halways))
    · exact holds_push _ _

theorem holds_foldl_insert (children : List Description) (d : Disjuncts) :
    (children.foldl insert d).toDescription.Holds I e ↔
      d.toDescription.Holds I e ∨ ∃ child ∈ children, child.Holds I e :=
  foldl_insert_of_holds (fun child _ d => d.holds_insert child) d

end Disjuncts

-- ============================================================ the builders

namespace Description

/-- All conditions together are their intersection. -/
theorem holds_allOf (children : List Description) :
    (allOf children).Holds I e ↔ ∀ child ∈ children, child.Holds I e := by
  rw [allOf, Conjuncts.holds_foldl_insert]
  exact and_iff_right (holds_conjunction.2 fun _ h => nomatch h)

/-- Any of the conditions is their union. -/
theorem holds_anyOf (children : List Description) :
    (anyOf children).Holds I e ↔ ∃ child ∈ children, child.Holds I e := by
  rw [anyOf, Disjuncts.holds_foldl_insert]
  refine or_iff_right fun h => ?_
  obtain h | ⟨_, h, -⟩ := holds_disjunction.1 h
  · cases h
  · cases h

end Description

end InlineQuery
