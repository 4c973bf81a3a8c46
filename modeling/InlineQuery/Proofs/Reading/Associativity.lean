/-
Conditions may be combined in any grouping.

Where every feature is permitted nothing is refused, and two conditions become
what `Mode.merge` says. What that is depends on both of them: a container that
is there is extended, category lists become one list, and anything else goes
into a new container of two.

# Insertion as an action

The cases disappear once `merge` is seen from a container of its mode. To
insert the merged condition is to insert one condition after the other
(`insert_merge`), and, two category lists apart, the merged condition is
itself an empty container into which both were inserted
(`merge_conjunctive`, `merge_disjunctive`). Three conditions hence make the
same container in either grouping, namely the one into which all of them were
inserted (`merge_assoc`).
-/
import InlineQuery.Proofs.Description.Flattening
import InlineQuery.Proofs.Reading.Combination
import InlineQuery.Session

namespace InlineQuery

open Description

-- =================================================== containers of nothing

theorem Conjuncts.empty_insert_toDescription (e : Conjuncts) :
    empty.insert e.toDescription = e := rfl

/-- A container of one condition is inserted like the condition. -/
theorem Conjuncts.insert_single (c : Conjuncts) (x : Description) :
    c.insert (empty.insert x).toDescription = c.insert x := by
  rw [insert_toDescription_insert]
  simp [insert, toDescription, empty]

theorem Disjuncts.WellFormed.empty_insert_toDescription {e : Disjuncts} (he : e.WellFormed) :
    empty.insert e.toDescription = e := by
  rw [wellFormed_empty.insert_toDescription he]
  by_cases halways : e.always = true
  · rw [if_pos halways]
    exact he.makeTrue_eq halways
  · rw [if_neg halways, he.foldl_insert_children (by simpa using halways)]
    rfl

theorem Disjuncts.WellFormed.insert_empty {d : Disjuncts} (hd : d.WellFormed) :
    d.insert empty.toDescription = d := by
  rw [hd.insert_toDescription wellFormed_empty]
  exact addPrints_nil d

/-- A container of one condition is inserted like the condition. -/
theorem Disjuncts.WellFormed.insert_single {d : Disjuncts} {x : Description}
    (hd : d.WellFormed) (hx : x.WellFormed) :
    d.insert (empty.insert x).toDescription = d.insert x := by
  rw [hd.insert_toDescription_insert wellFormed_empty hx, hd.insert_empty]

namespace Mode

/-- What two conditions become together where nothing is refused. -/
def merge (mode : Mode) (current incoming : Description) : Description :=
  (mode.extend? current incoming).getD (mode.join current incoming)

-- ============================================================ conjunctions

theorem merge_conjunctive (a b : Description) :
    merge .conjunctive a b = ((Conjuncts.empty.insert a).insert b).toDescription := by
  cases a <;> rfl

theorem merge_conjunctive_assoc (a b c : Description) :
    merge .conjunctive (merge .conjunctive a b) c =
      merge .conjunctive a (merge .conjunctive b c) := by
  simp only [merge_conjunctive, Conjuncts.empty_insert_toDescription,
    Conjuncts.insert_toDescription_insert _ (Conjuncts.empty.insert b), Conjuncts.insert_single]

-- ============================================================ disjunctions

variable {a b c : Description}

theorem merge_categories (xs ys : List Page) (h k : Bool) (ps qs : List PrintRequest) :
    merge .disjunctive (.categories xs h ps) (.categories ys k qs) =
      .categories (xs ++ ys) (h || k) (ps ++ qs) := rfl

theorem merge_disjunctive (ha : a.WellFormed)
    (hnot : ¬ (a.isCategories = true ∧ b.isCategories = true)) :
    merge .disjunctive a b = ((Disjuncts.empty.insert a).insert b).toDescription := by
  cases a with
  | disjunction children categoryIndex always ps =>
    have hbuilt : (Disjuncts.mk children categoryIndex always ps).WellFormed :=
      Disjuncts.wellFormed_toDescription.1 ha
    have hempty := hbuilt.empty_insert_toDescription
    exact congrArg (fun d : Disjuncts => (d.insert b).toDescription) hempty.symm
  | categories =>
    cases b with
    | categories => exact absurd ⟨rfl, rfl⟩ hnot
    | _ => rfl
  | _ => rfl

theorem isCategories_merge (ha : a.WellFormed) :
    (merge .disjunctive a b).isCategories = (a.isCategories && b.isCategories) := by
  by_cases hboth : a.isCategories = true ∧ b.isCategories = true
  · obtain ⟨xs, h, ps, rfl⟩ := eq_categories_of_isCategories hboth.1
    obtain ⟨ys, k, qs, rfl⟩ := eq_categories_of_isCategories hboth.2
    rfl
  · rw [merge_disjunctive ha hboth, ← Bool.and_eq_true] at *
    exact (Bool.eq_false_iff.2 hboth).symm

theorem wellFormed_merge_disjunctive (ha : a.WellFormed) (hb : b.WellFormed) :
    (merge .disjunctive a b).WellFormed := by
  by_cases hboth : a.isCategories = true ∧ b.isCategories = true
  · obtain ⟨xs, h, ps, rfl⟩ := eq_categories_of_isCategories hboth.1
    obtain ⟨ys, k, qs, rfl⟩ := eq_categories_of_isCategories hboth.2
    have hmerged : mergeCategories? (.categories xs h ps) (.categories ys k qs) =
      some (.categories (xs ++ ys) (h || k) (ps ++ qs)) := rfl
    exact wellFormed_mergeCategories? ha hmerged
  · rw [merge_disjunctive ha hboth]
    exact Disjuncts.wellFormed_toDescription.2 ((Disjuncts.wellFormed_empty.insert ha).insert hb)

theorem wellFormed_merge (mode : Mode) (ha : a.WellFormed) (hb : b.WellFormed) :
    (mode.merge a b).WellFormed := by
  cases mode with
  | conjunctive =>
    rw [merge_conjunctive]
    exact Conjuncts.wellFormed_toDescription.2
      ((Conjuncts.wellFormed_empty.insert ha).insert hb)
  | disjunctive => exact wellFormed_merge_disjunctive ha hb

/-- To insert what two conditions make is to insert both of them. -/
theorem insert_merge {d : Disjuncts} (hd : d.WellFormed) (ha : a.WellFormed)
    (hb : b.WellFormed) : d.insert (merge .disjunctive a b) = (d.insert a).insert b := by
  by_cases hboth : a.isCategories = true ∧ b.isCategories = true
  · obtain ⟨xs, h, ps, rfl⟩ := eq_categories_of_isCategories hboth.1
    obtain ⟨ys, k, qs, rfl⟩ := eq_categories_of_isCategories hboth.2
    rw [merge_categories]
    by_cases halways : d.always = true
    · have hkept : (d.addPrints ps).always = true := halways
      rw [Disjuncts.insert_of_always halways, Disjuncts.insert_of_always halways]
      show d.addPrints (ps ++ qs) = (d.addPrints ps).insert _
      rw [Disjuncts.insert_of_always hkept, Disjuncts.addPrints_addPrints]
      rfl
    · have halways : d.always = false := by simpa using halways
      have hkept : ((d.insertCategories xs h).addPrints ps).always = false := by
        show (d.insertCategories xs h).always = false
        rw [Disjuncts.always_insertCategories, halways]
      rw [Disjuncts.insert_categories halways, Disjuncts.insert_categories halways,
        Disjuncts.insert_categories hkept, Disjuncts.insertCategories_addPrints,
        hd.insertCategories_insertCategories, Disjuncts.addPrints_addPrints]
  · rw [merge_disjunctive ha hboth,
      hd.insert_toDescription_insert (Disjuncts.wellFormed_empty.insert ha) hb,
      hd.insert_single ha]

theorem merge_disjunctive_assoc (ha : a.WellFormed) (hb : b.WellFormed) (hc : c.WellFormed) :
    merge .disjunctive (merge .disjunctive a b) c =
      merge .disjunctive a (merge .disjunctive b c) := by
  by_cases hall : a.isCategories = true ∧ b.isCategories = true ∧ c.isCategories = true
  · obtain ⟨xs, h, ps, rfl⟩ := eq_categories_of_isCategories hall.1
    obtain ⟨ys, k, qs, rfl⟩ := eq_categories_of_isCategories hall.2.1
    obtain ⟨zs, l, rs, rfl⟩ := eq_categories_of_isCategories hall.2.2
    simp only [merge_categories, List.append_assoc, Bool.or_assoc]
  · have hempty := Disjuncts.wellFormed_empty
    have hleft : ¬ ((merge .disjunctive a b).isCategories = true ∧ c.isCategories = true) := by
      rw [isCategories_merge ha, Bool.and_eq_true, and_assoc]
      exact hall
    have hright : ¬ (a.isCategories = true ∧ (merge .disjunctive b c).isCategories = true) := by
      rw [isCategories_merge hb, Bool.and_eq_true]
      exact hall
    calc merge .disjunctive (merge .disjunctive a b) c
        = ((Disjuncts.empty.insert (merge .disjunctive a b)).insert c).toDescription :=
          merge_disjunctive (wellFormed_merge_disjunctive ha hb) hleft
      _ = (((Disjuncts.empty.insert a).insert b).insert c).toDescription := by
          rw [insert_merge hempty ha hb]
      _ = ((Disjuncts.empty.insert a).insert (merge .disjunctive b c)).toDescription := by
          rw [insert_merge (hempty.insert ha) hb hc]
      _ = merge .disjunctive a (merge .disjunctive b c) := (merge_disjunctive ha hright).symm

theorem merge_assoc (mode : Mode) (ha : a.WellFormed) (hb : b.WellFormed) (hc : c.WellFormed) :
    mode.merge (mode.merge a b) c = mode.merge a (mode.merge b c) := by
  cases mode with
  | conjunctive => exact merge_conjunctive_assoc a b c
  | disjunctive => exact merge_disjunctive_assoc ha hb hc

/-- The same where any of the conditions may be missing. -/
theorem merge_assoc_option (mode : Mode) {a b c : Option Description}
    (ha : ∀ d ∈ a, d.WellFormed) (hb : ∀ d ∈ b, d.WellFormed) (hc : ∀ d ∈ c, d.WellFormed) :
    (a.merge mode.merge b).merge mode.merge c = a.merge mode.merge (b.merge mode.merge c) := by
  cases a with
  | none => cases b <;> cases c <;> rfl
  | some a =>
    cases b with
    | none => cases c <;> rfl
    | some b =>
      cases c with
      | none => rfl
      | some c => exact congrArg some (mode.merge_assoc (ha a rfl) (hb b rfl) (hc c rfl))

end Mode

/-- A combination refuses what is not permitted, and then nothing changes; if it
does not, two conditions become what `Mode.merge` says. -/
theorem combine_refused_or_merge (permitted : FeatureSet) (mode : Mode)
    (current incoming : Option Description) :
    (∃ feature fragment, permitted.has feature = false ∧
        combine permitted mode current incoming =
          ⟨current, some (.featureNotPermitted feature fragment)⟩) ∨
      combine permitted mode current incoming = ⟨current.merge mode.merge incoming, none⟩ := by
  have h := combine_combination permitted mode current incoming
  generalize combine permitted mode current incoming = combined at h ⊢
  cases h with
  | nothing => exact .inr (by cases current <;> rfl)
  | refused _ d feature _ hnot => exact .inl ⟨feature, d.write, hnot, rfl⟩
  | first d => exact .inr rfl
  | extended existing d extended _ hextended =>
    refine .inr ?_
    rw [Option.merge, Mode.merge, hextended]
    rfl
  | joined existing d _ hnone =>
    refine .inr ?_
    rw [Option.merge, Mode.merge, hnone]
    rfl
  | separate existing d _ hnot => exact .inl ⟨mode.feature, d.write, hnot, rfl⟩

/-- Where every feature is permitted, nothing is refused. -/
theorem combine_eq_merge {permitted : FeatureSet}
    (hall : ∀ feature, permitted.has feature = true) (mode : Mode)
    (current incoming : Option Description) :
    combine permitted mode current incoming = ⟨current.merge mode.merge incoming, none⟩ := by
  obtain ⟨feature, _, hnot, -⟩ | heq := combine_refused_or_merge permitted mode current incoming
  · exact absurd (hall feature) (by simp [hnot])
  · exact heq

theorem Reader.combine_of_permitted {r : Reader}
    (hall : ∀ feature, r.config.features.has feature = true) (mode : Mode)
    (current incoming : Option Description) (s : State) :
    r.combine mode current incoming s = ⟨current.merge mode.merge incoming, s⟩ := by
  rw [Reader.combine, combine_eq_merge hall]

theorem Reader.restrictAll_of_permitted {r : Reader}
    (hall : ∀ feature, r.config.features.has feature = true) (defaults : Description)
    (ds : List (Option Description)) (s : State) :
    r.restrictAll defaults ds s =
      (ds.map fun d => d.merge (Mode.merge .conjunctive) (some defaults), s) := by
  induction ds with
  | nil => rfl
  | cons d ds ih =>
    rw [restrictAll, combine_of_permitted hall, ih]
    rfl

theorem Reader.combineAll_of_permitted {r : Reader}
    (hall : ∀ feature, r.config.features.has feature = true) (result : Option Description)
    (ds : List (Option Description)) (s : State) :
    r.combineAll result ds s = ⟨ds.foldl (Option.merge (Mode.merge .disjunctive)) result, s⟩ := by
  induction ds generalizing result with
  | nil => rfl
  | cons d ds ih =>
    rw [combineAll, combine_of_permitted hall, ih]
    rfl

/-- Whatever is permitted, a combination drops what comes in or merges it with
what is there. -/
theorem combine_eq_current_or_merge (permitted : FeatureSet) (mode : Mode)
    (current incoming : Option Description) :
    (combine permitted mode current incoming).result = current ∨
      (combine permitted mode current incoming).result = current.merge mode.merge incoming := by
  obtain ⟨_, _, -, heq⟩ | heq := combine_refused_or_merge permitted mode current incoming
  · exact .inl (congrArg Combined.result heq)
  · exact .inr (congrArg Combined.result heq)

-- ================================================================ sessions

namespace Session

section permitted

variable {s : Session} (hall : ∀ feature, s.reader.config.features.has feature = true)

include hall

theorem combine_of_permitted (mode : Mode) (current incoming : Option Description) :
    s.combine mode current incoming = (current.merge mode.merge incoming, s) := by
  unfold combine
  rw [combine_eq_merge hall]
  dsimp only [Option.toList]
  rw [List.append_nil]

/-- Where every feature is permitted, combining conditions is a monoid: the
grouping does not matter, down to the order of children, pages and print
requests, no condition is neutral on both sides, and nothing is reported. -/
theorem combine_monoid (mode : Mode) {a b c : Option Description} (ha : ∀ d ∈ a, d.WellFormed)
    (hb : ∀ d ∈ b, d.WellFormed) (hc : ∀ d ∈ c, d.WellFormed) :
    let ab := s.combine mode a b
    let bc := s.combine mode b c
    ab.2.combine mode ab.1 c = bc.2.combine mode a bc.1 ∧
      s.combine mode none a = (a, s) ∧ s.combine mode a none = (a, s) ∧
      ∀ current incoming : Option Description,
        (s.combine mode current incoming).2.diagnostics = s.diagnostics := by
  simp only [combine_of_permitted hall]
  refine ⟨congrArg (Prod.mk · s) (mode.merge_assoc_option ha hb hc), ?_, ?_, fun _ _ => trivial⟩
  · cases a <;> rfl
  · cases a <;> rfl

end permitted

/-- Two category lists in front of a disjunction that has one behind another
condition: all pages end up in the list that comes first. -/
theorem combine_monoid_categories :
    let s := Session.ofConfig {}
    let list (names : List String) : Description :=
      .categories (names.map fun name => Page.category name.toList) false []
    let located := Description.someProperty ⟨"Located in".toList, false⟩ (.thing []) []
    let a := list ["A"]
    let b := list ["B"]
    let c := Description.disjunction [located, list ["C"]] (some 1) false []
    let all := Description.disjunction [list ["A", "B", "C"], located] (some 0) false []
    let ab := s.combine .disjunctive (some a) (some b)
    let bc := s.combine .disjunctive (some b) (some c)
    ((∀ feature, s.reader.config.features.has feature = true) ∧
        a.WellFormed ∧ b.WellFormed ∧ c.WellFormed) ∧
      ab.1 = some (list ["A", "B"]) ∧
      bc.1 = some (.disjunction [list ["B", "C"], located] (some 0) false []) ∧
      ab.2.combine .disjunctive ab.1 (some c) = (some all, s) ∧
      bc.2.combine .disjunctive (some a) bc.1 = (some all, s) := by
  intro s list located a b c all ab bc
  have hall : ∀ feature, s.reader.config.features.has feature = true :=
    FeatureSet.has_all
  have hlist (name : String) (more : List String) : (list (name :: more)).WellFormed :=
    .categories _ _ (by simp)
  have hc : c.WellFormed := by
    refine .disjunction _ ?_ ?_ ?_ (fun h => nomatch h)
    · exact List.forall_mem_cons.2 ⟨⟨rfl, rfl, rfl⟩, List.forall_mem_singleton.2 ⟨rfl, rfl, rfl⟩⟩
    · exact List.forall_mem_cons.2 ⟨.someProperty _ _ (.thing _),
        List.forall_mem_singleton.2 (hlist "C" [])⟩
    · intro i
      match i with
      | 0 => simp [located, isCategories]
      | 1 => simp [list, isCategories]
      | i + 2 => simp
  have hsome {d : Description} (hd : d.WellFormed) : ∀ x ∈ some d, x.WellFormed := by
    rintro x ⟨⟩
    exact hd
  have hmonoid := combine_monoid hall .disjunctive (hsome (hlist "A" [])) (hsome (hlist "B" []))
    (hsome hc)
  have hright : bc.2.combine .disjunctive (some a) bc.1 = (some all, s) := rfl
  exact ⟨⟨hall, hlist "A" [], hlist "B" [], hc⟩, rfl, rfl, hmonoid.1.trans hright, hright⟩

end Session

end InlineQuery
