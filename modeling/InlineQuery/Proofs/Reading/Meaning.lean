/-
What building and combining make of meanings.

The entities that satisfy a condition are a set (`satisfying`). However the
trees are rewritten on the way, what is built of conditions is the intersection
or the union of their sets: a container of a list, a container with one more
condition in it, and two conditions that were combined (`satisfying_built`).

Containers are the work of `Proofs.Description.Meaning`. A combination does one
thing more, since two category lists become one instead of a disjunction of two;
but that is their union as well (`Mode.holds_join_disjunctive`).
-/
import Mathlib.Data.Set.Lattice
import InlineQuery.Proofs.Description.Meaning
import InlineQuery.Proofs.Reading.Associativity

namespace InlineQuery

universe u

-- ============================================================= combinations

namespace Mode

open Description

variable {Entity : Type u} {I : Interpretation Entity} {e : Entity}

theorem holds_merge_conjunctive (a b : Description) :
    (merge .conjunctive a b).Holds I e ↔ a.Holds I e ∧ b.Holds I e := by
  have hempty : Conjuncts.empty.toDescription.Holds I e := holds_conjunction.2 fun _ h => nomatch h
  rw [merge_conjunctive, Conjuncts.holds_insert, Conjuncts.holds_insert, and_iff_right hempty]

theorem holds_join_disjunctive (a b : Description) :
    (join .disjunctive a b).Holds I e ↔ a.Holds I e ∨ b.Holds I e := by
  obtain ⟨hmode, -⟩ | ⟨-, xs, h, ps, ys, k, qs, rfl, rfl, hjoin⟩ | ⟨-, -, hjoin⟩ :=
    join_cases .disjunctive a b
  · cases hmode
  · rw [hjoin, holds_categories, holds_categories, holds_categories]
    simp only [List.mem_append, or_and_right, exists_or]
  · rw [hjoin, holds_anyOf]
    simp only [List.mem_cons, List.not_mem_nil, or_false, exists_eq_or_imp, exists_eq_left]

theorem holds_merge_disjunctive (a b : Description) :
    (merge .disjunctive a b).Holds I e ↔ a.Holds I e ∨ b.Holds I e := by
  unfold merge
  cases hextend : extend? .disjunctive a b with
  | none => exact holds_join_disjunctive a b
  | some extended =>
    obtain ⟨hmode, -⟩ | ⟨-, children, categoryIndex, always, ps, rfl, rfl⟩ := extend?_cases hextend
    · cases hmode
    · exact Disjuncts.holds_insert ⟨children, categoryIndex, always, ps⟩ b

end Mode

-- ===================================================================== sets

namespace Description

variable {Entity : Type u} (I : Interpretation Entity)

/-- The entities that satisfy a condition. -/
def satisfying (d : Description) : Set Entity := {e | d.Holds I e}

variable {I}

theorem mem_satisfying {d : Description} {e : Entity} : e ∈ d.satisfying I ↔ d.Holds I e := Iff.rfl

theorem satisfying_allOf (children : List Description) :
    (allOf children).satisfying I = ⋂ d ∈ children, d.satisfying I := by
  ext e
  simp only [Set.mem_iInter, mem_satisfying, holds_allOf]

theorem satisfying_anyOf (children : List Description) :
    (anyOf children).satisfying I = ⋃ d ∈ children, d.satisfying I := by
  ext e
  simp only [Set.mem_iUnion, exists_prop, mem_satisfying, holds_anyOf]

/-- One more condition in a conjunction is an intersection. -/
theorem satisfying_insert_conjunction (children : List Description) (ps : List PrintRequest)
    (child : Description) :
    ∃ extended, (conjunction children ps).insert? child = some extended ∧
      extended.satisfying I = (conjunction children ps).satisfying I ∩ child.satisfying I :=
  ⟨_, rfl, Set.ext fun _ => Conjuncts.holds_insert ⟨children, ps⟩ child⟩

/-- One more condition in a disjunction is a union. -/
theorem satisfying_insert_disjunction (children : List Description) (categoryIndex : Option Nat)
    (always : Bool) (ps : List PrintRequest) (child : Description) :
    ∃ extended, (disjunction children categoryIndex always ps).insert? child = some extended ∧
      extended.satisfying I =
        (disjunction children categoryIndex always ps).satisfying I ∪ child.satisfying I :=
  ⟨_, rfl, Set.ext fun _ => Disjuncts.holds_insert ⟨children, categoryIndex, always, ps⟩ child⟩

end Description

namespace Mode

open Description

variable {Entity : Type u} {I : Interpretation Entity}

/-- The set of those that are in both sets, or in one of them. -/
def onSets : Mode → Set Entity → Set Entity → Set Entity
  | .conjunctive => fun s t => s ∩ t
  | .disjunctive => fun s t => s ∪ t

theorem satisfying_merge (mode : Mode) (a b : Description) :
    (mode.merge a b).satisfying I = mode.onSets (a.satisfying I) (b.satisfying I) := by
  ext e
  cases mode with
  | conjunctive => exact holds_merge_conjunctive a b
  | disjunctive => exact holds_merge_disjunctive a b

end Mode

namespace Session

open Description

variable {s : Session} {Entity : Type u}

/-- **Building keeps the meaning**, whatever the world is like. The conjunction
of a list of conditions is satisfied by the intersection of their sets and the
disjunction by the union. One more condition in a conjunction intersects its
set, one more in a disjunction is added to it. And where every feature is
permitted, any two conditions can be combined, to the intersection or the union
of their sets as the mode says. -/
theorem satisfying_built (hall : ∀ feature, s.reader.config.features.has feature = true)
    (I : Interpretation Entity) :
    (∀ children, (allOf children).satisfying I = ⋂ d ∈ children, d.satisfying I) ∧
      (∀ children, (anyOf children).satisfying I = ⋃ d ∈ children, d.satisfying I) ∧
      (∀ children ps child, ∃ extended,
        (conjunction children ps).insert? child = some extended ∧
        extended.satisfying I = (conjunction children ps).satisfying I ∩ child.satisfying I) ∧
      (∀ children categoryIndex always ps child, ∃ extended,
        (disjunction children categoryIndex always ps).insert? child = some extended ∧
        extended.satisfying I =
          (disjunction children categoryIndex always ps).satisfying I ∪ child.satisfying I) ∧
      ∀ mode a b, ∃ combined, s.combine mode (some a) (some b) = (some combined, s) ∧
        combined.satisfying I = mode.onSets (a.satisfying I) (b.satisfying I) := by
  refine ⟨satisfying_allOf, satisfying_anyOf, satisfying_insert_conjunction,
    satisfying_insert_disjunction, fun mode a b => ⟨mode.merge a b, ?_, mode.satisfying_merge a b⟩⟩
  exact combine_of_permitted hall mode (some a) (some b)

/-- In a world of letters, of which a category has those in its name: category
lists around another condition become one list at the place of the first, and a
disjunction that the condition of any page was put into has them all. -/
theorem satisfying_built_letters :
    let s := Session.ofConfig {}
    let I : Interpretation Char :=
      ⟨fun _ _ _ _ => False, fun page c => c ∈ page.title, fun _ _ _ => False, fun _ _ => False,
        fun _ _ _ => False⟩
    let list (names : List String) : Description :=
      .categories (names.map fun name => Page.category name.toList) false []
    let help := Description.inNamespace 12 "Help".toList []
    let either := Description.disjunction [list ["AB", "CD"], help] (some 0) false []
    (∀ feature, s.reader.config.features.has feature = true) ∧
      anyOf [list ["AB"], help, list ["CD"]] = either ∧
      either.satisfying I = {'A', 'B', 'C', 'D'} ∧
      (∃ extended, either.insert? (.thing []) = some extended ∧
        extended.satisfying I = Set.univ) ∧
      ∃ combined, s.combine .conjunctive (some either) (some (list ["BE"])) = (some combined, s) ∧
        combined.satisfying I = {'B'} := by
  intro s I list help either
  have hall : ∀ feature, s.reader.config.features.has feature = true := FeatureSet.has_all
  obtain ⟨-, hany, -, hinsert, hcombine⟩ := satisfying_built hall I
  have hlist (names : List String) :
      (list names).satisfying I = {c | ∃ name ∈ names, c ∈ name.toList} := by
    ext c
    simp [list, mem_satisfying, holds_categories, I, Page.category]
  have hbuilt : anyOf [list ["AB"], help, list ["CD"]] = either := rfl
  have heither : either.satisfying I = {'A', 'B', 'C', 'D'} := by
    have hhelp : help.satisfying I = ∅ := rfl
    rw [← hbuilt, hany]
    ext c
    simp [hlist, hhelp, or_assoc]
  obtain ⟨extended, hextended, hunion⟩ :=
    hinsert [list ["AB", "CD"], help] (some 0) false [] (.thing [])
  obtain ⟨combined, hcombined, hboth⟩ := hcombine .conjunctive either (list ["BE"])
  refine ⟨hall, hbuilt, heither, ⟨extended, hextended, ?_⟩, combined, hcombined, ?_⟩
  · rw [hunion]
    exact Set.union_univ _
  · rw [hboth, heither, hlist]
    ext c
    constructor
    · rintro ⟨rfl | rfl | rfl | rfl, hc⟩
      · exact absurd hc (by decide)
      · rfl
      · exact absurd hc (by decide)
      · exact absurd hc (by decide)
    · rintro rfl
      exact ⟨.inr (.inl rfl), "BE", by decide⟩

end Session

end InlineQuery
