/-
What a combination yields, case by case.

`combine` decides among several ways out by what comes in, what is there
already and what is permitted. `Combination` lists them, one constructor for
each, with what is known on that way; what is proved of `combine` is proved
by going through them.
-/
import InlineQuery.Proofs.Description.Children
import InlineQuery.Reader.Combine

namespace InlineQuery

open Description

/-- The ways out of a combination. -/
inductive Combination (permitted : FeatureSet) (mode : Mode) :
    Option Description → Option Description → Combined → Prop
  /-- Nothing comes in. -/
  | nothing (current : Option Description) :
    Combination permitted mode current none ⟨current, none⟩
  /-- What comes in needs a feature that is not permitted. -/
  | refused (current : Option Description) (d : Description) (feature : Feature)
      (h : d.requiredFeature? = some feature) (hnot : permitted.has feature = false) :
    Combination permitted mode current (some d)
      ⟨current, some (.featureNotPermitted feature d.write)⟩
  /-- What comes in is the first condition. -/
  | first (d : Description)
      (h : ∀ feature, d.requiredFeature? = some feature → permitted.has feature = true) :
    Combination permitted mode none (some d) ⟨some d, none⟩
  /-- The container that is there takes it in. -/
  | extended (existing d extended : Description)
      (h : ∀ feature, d.requiredFeature? = some feature → permitted.has feature = true)
      (hextended : mode.extend? existing d = some extended) :
    Combination permitted mode (some existing) (some d) ⟨some extended, none⟩
  /-- A new container holds both. -/
  | joined (existing d : Description)
      (h : ∀ feature, d.requiredFeature? = some feature → permitted.has feature = true)
      (hnone : mode.extend? existing d = none) (hmode : permitted.has mode.feature = true) :
    Combination permitted mode (some existing) (some d) ⟨some (mode.join existing d), none⟩
  /-- A new container would be needed and is not permitted. -/
  | separate (existing d : Description) (hnone : mode.extend? existing d = none)
      (hmode : permitted.has mode.feature = false) :
    Combination permitted mode (some existing) (some d)
      ⟨some existing, some (.featureNotPermitted mode.feature d.write)⟩

theorem combine_combination (permitted : FeatureSet) (mode : Mode)
    (current incoming : Option Description) :
    Combination permitted mode current incoming (combine permitted mode current incoming) := by
  cases incoming with
  | none => exact .nothing current
  | some d =>
    simp only [combine]
    cases hfeature : d.requiredFeature?.filter fun feature => !permitted.has feature with
    | some feature =>
      obtain ⟨hrequired, hnot⟩ := Option.filter_eq_some_iff.1 hfeature
      exact .refused current d feature hrequired (by simpa using hnot)
    | none =>
      have h : ∀ feature, d.requiredFeature? = some feature → permitted.has feature = true := by
        intro feature hrequired
        simpa [hrequired, Option.filter] using hfeature
      cases current with
      | none => exact .first d h
      | some existing =>
        dsimp only
        cases hextend : mode.extend? existing d with
        | some extended => exact .extended existing d extended h hextend
        | none =>
          dsimp only
          by_cases hmode : permitted.has mode.feature = true
          · rw [if_pos hmode]
            exact .joined existing d h hextend hmode
          · rw [if_neg hmode]
            exact .separate existing d hextend (by simpa using hmode)

section permitted

variable {permitted : FeatureSet} (hall : ∀ feature, permitted.has feature = true)

include hall

theorem combine_none (mode : Mode) (d : Description) :
    (combine permitted mode none (some d)).result = some d := by
  have h := combine_combination permitted mode none (some d)
  generalize combine permitted mode none (some d) = combined at h
  cases h with
  | refused _ _ feature _ hnot => exact absurd (hall feature) (by simp [hnot])
  | first => rfl

theorem combine_some (mode : Mode) (existing d : Description) :
    (combine permitted mode (some existing) (some d)).result =
      some ((mode.extend? existing d).getD (mode.join existing d)) := by
  have h := combine_combination permitted mode (some existing) (some d)
  generalize combine permitted mode (some existing) (some d) = combined at h
  cases h with
  | refused _ _ feature _ hnot => exact absurd (hall feature) (by simp [hnot])
  | extended _ _ extended _ hextended => rw [hextended]; rfl
  | joined _ _ _ hnone => rw [hnone]; rfl
  | separate _ _ _ hnot => exact absurd (hall mode.feature) (by simp [hnot])

end permitted

namespace Mode

/-- A container that was extended is of the kind of the mode before and
after. -/
theorem extend?_cases {mode : Mode} {existing d extended : Description}
    (h : mode.extend? existing d = some extended) :
    (mode = .conjunctive ∧ ∃ children ps, existing = .conjunction children ps ∧
        extended = (Conjuncts.insert ⟨children, ps⟩ d).toDescription) ∨
      (mode = .disjunctive ∧ ∃ children categoryIndex always ps,
        existing = .disjunction children categoryIndex always ps ∧
        extended = (Disjuncts.insert ⟨children, categoryIndex, always, ps⟩ d).toDescription) := by
  cases mode with
  | conjunctive =>
    cases existing with
    | conjunction children ps =>
      exact .inl ⟨rfl, children, ps, rfl, (Option.some.inj h).symm⟩
    | _ => cases h
  | disjunctive =>
    cases existing with
    | disjunction children categoryIndex always ps =>
      exact .inr ⟨rfl, children, categoryIndex, always, ps, rfl, (Option.some.inj h).symm⟩
    | _ => cases h

/-- Two category lists are joined disjunctively to one list, any other two
conditions to a container. -/
theorem join_cases (mode : Mode) (existing d : Description) :
    (mode = .conjunctive ∧ mode.join existing d = .allOf [existing, d]) ∨
      (mode = .disjunctive ∧ ∃ xs h ps ys k qs, existing = .categories xs h ps ∧
        d = .categories ys k qs ∧
        mode.join existing d = .categories (xs ++ ys) (h || k) (ps ++ qs)) ∨
      (mode = .disjunctive ∧ existing.mergeCategories? d = none ∧
        mode.join existing d = .anyOf [existing, d]) := by
  cases mode with
  | conjunctive => exact .inl ⟨rfl, rfl⟩
  | disjunctive =>
    unfold join
    dsimp only
    split
    · next merged hmerged =>
      unfold mergeCategories? at hmerged
      split at hmerged
      · next xs h ps ys k qs =>
        cases hmerged
        exact .inr (.inl ⟨rfl, xs, h, ps, ys, k, qs, rfl, rfl, rfl⟩)
      · cases hmerged
    · next hnone => exact .inr (.inr ⟨rfl, hnone, rfl⟩)

end Mode

namespace Reader

/-- A combination only ever adds a diagnostic. -/
theorem state_combine (r : Reader) (mode : Mode) (current incoming : Option Description)
    (s : State) :
    (r.combine mode current incoming s).state =
      match (InlineQuery.combine r.config.features mode current incoming).problem with
      | some problem => s.report problem
      | none => s := rfl

/-- Where every feature is permitted, a combination reports nothing. -/
theorem state_combine_of_permitted {r : Reader}
    (hall : ∀ feature, r.config.features.has feature = true) (mode : Mode)
    (current incoming : Option Description) (s : State) :
    (r.combine mode current incoming s).state = s := by
  rw [state_combine]
  have h := combine_combination r.config.features mode current incoming
  generalize InlineQuery.combine r.config.features mode current incoming = combined at h
  cases h with
  | refused _ d feature h hnot => exact absurd (hall feature) (by simp [hnot])
  | separate existing d hnone hmode => exact absurd (hall mode.feature) (by simp [hmode])
  | _ => rfl

end Reader

end InlineQuery
