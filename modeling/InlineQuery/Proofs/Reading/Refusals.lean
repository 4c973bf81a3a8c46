/-
What is not permitted is refused out loud.

A wiki that does not permit a feature has its readers drop the conditions that
need it. Nothing else about a reading depends on what is permitted: where no
condition was refused, a wiki that permits everything comes to the same tree,
and to the same diagnostics in the same order (`read_eq_of_unrefused`).

The reading that must not have refused anything is the one with the fewer
features. Whatever it did not refuse, it combined as it would have been combined
elsewhere (`combine_of_unrefused`), and so the other reader follows it in
lockstep, flags and missing conditions included.

# Namespaces

One of the features is never asked for: no condition needs it and no container
does (`combine_of_has_eq`). So namespaces are read on every wiki, and whether that
feature is permitted makes no difference to any query (`read_of_namespaces`).
-/
import InlineQuery.Proofs.Reading.Associativity
import InlineQuery.Proofs.Reading.Lockstep

namespace InlineQuery

namespace State

/-- No condition has been refused. -/
def Unrefused (s : State) : Prop :=
  ∀ feature fragment, Diagnostic.featureNotPermitted feature fragment ∉ s.diagnostics

theorem Unrefused.of_precedes {s t : State} (h : s.Precedes t) (ht : t.Unrefused) :
    s.Unrefused := fun feature fragment hmem => ht feature fragment (h.subset hmem)

end State

namespace Reader

open State

section permitted

variable {r r' : Reader} (hall : ∀ feature, r'.config.features.has feature = true)

include hall

theorem combine_of_unrefused {mode : Mode} {current incoming : Option Description} {s : State}
    (h : (r.combine mode current incoming s).state.Unrefused) :
    r'.combine mode current incoming s = r.combine mode current incoming s := by
  unfold combine at h ⊢
  rw [combine_eq_merge hall]
  obtain ⟨feature, fragment, -, heq⟩ | heq :=
    combine_refused_or_merge r.config.features mode current incoming
  · rw [heq] at h
    exact absurd (List.mem_append_right _ List.mem_cons_self) (h feature fragment)
  · rw [heq]

/-- Readings that refuse nothing combine what is combined where all is permitted. -/
theorem combinesAlike_of_permitted (hwiki : r.SameWiki r') (hdefaults : r'.defaults = r.defaults) :
    CombinesAlike Unrefused r r' where
  wiki := hwiki
  defaults := hdefaults
  quiet_of_precedes _ _ := Unrefused.of_precedes
  combine _ _ _ _ := combine_of_unrefused hall

end permitted

/-- **What is permitted matters only where something is refused.** On any wiki
and whatever it permits, a query of which no part is refused is read as it is
where all features are permitted: the tree is the same, and so are all
diagnostics. -/
theorem read_eq_of_unrefused (config : Config) (permitted everything : FeatureSet)
    (hall : ∀ feature, everything.has feature = true) (query : Text)
    (h : ∀ feature fragment, Diagnostic.featureNotPermitted feature fragment ∉
      (Query.read (ofConfig { config with features := permitted }) query).diagnostics) :
    Query.read (ofConfig { config with features := permitted }) query =
      Query.read (ofConfig { config with features := everything }) query := by
  have hwiki : (ofConfig { config with features := permitted }).SameWiki
    (ofConfig { config with features := everything }) := ⟨everything, config.defaultNamespaces, rfl⟩
  have hread := (combinesAlike_of_permitted hall hwiki rfl).read h
  unfold Query.read
  rw [hread]

/-- A property condition, and behind it something that means nothing, on a wiki
that permits property conditions only. -/
theorem read_eq_of_unrefused_part :
    let config : Config := {}
    let query := "[[A::+]] x".toList
    let masked := Query.read (ofConfig { config with features := .only .property }) query
    masked.diagnostics = [.unexpectedPart "x".toList] ∧
      (∀ feature fragment, .featureNotPermitted feature fragment ∉ masked.diagnostics) ∧
      masked = Query.read (ofConfig { config with features := .all }) query := by
  intro config query masked
  have hchain : chain { config with features := .only .property } "A".toList =
    .ok ⟨[], ⟨"A".toList, false⟩, .page⟩ := rfl
  have hdiagnostics : masked.diagnostics = [.unexpectedPart "x".toList] := by
    unfold masked Query.read read
    rw [readSubquery_ne_nil (by decide +kernel), readAlternatives_openAtom (by decide +kernel),
      readAtom_property (by decide +kernel) (by decide +kernel) (by decide +kernel)
        (by decide +kernel),
      readProperty_ok hchain,
      readValues_last (by rw [readOneValue_wildcard (by decide +kernel)]; decide +kernel),
      readOneValue_wildcard (by decide +kernel),
      readAlternatives_unexpected (by unfold Unexpected; decide +kernel),
      readAlternatives_finish (by decide +kernel)]
    decide +kernel
  have hunrefused : ∀ feature fragment,
      .featureNotPermitted feature fragment ∉ masked.diagnostics := by
    intro feature fragment
    rw [hdiagnostics, List.mem_singleton]
    exact nofun
  exact ⟨hdiagnostics, hunrefused,
    read_eq_of_unrefused config (.only .property) .all FeatureSet.has_all query hunrefused⟩

end Reader

-- ============================================================== namespaces

/-- No condition needs the feature of namespaces, and no container does. -/
theorem combine_of_has_eq {permitted permitted' : FeatureSet}
    (h : ∀ feature, feature ≠ .namespaces → permitted'.has feature = permitted.has feature)
    (mode : Mode) (current incoming : Option Description) :
    combine permitted' mode current incoming = combine permitted mode current incoming := by
  have hmode : permitted'.has mode.feature = permitted.has mode.feature := by
    cases mode <;> exact h _ (by decide)
  cases incoming with
  | none => rfl
  | some incoming =>
    have hrequired : (incoming.requiredFeature?.filter fun feature => !permitted'.has feature) =
        incoming.requiredFeature?.filter fun feature => !permitted.has feature := by
      cases hfeature : incoming.requiredFeature? with
      | none => rfl
      | some feature =>
        have hne : feature ≠ .namespaces := by
          rintro rfl
          cases incoming <;> cases hfeature
        rw [Option.filter_some, Option.filter_some, h feature hne]
    unfold combine
    dsimp only
    rw [hrequired, hmode]

namespace Reader

/-- **Namespaces cannot be forbidden.** On any wiki and for every query, whether
the feature of namespaces is permitted changes nothing: the tree is the same, with
all the namespaces that are in it, and so are the diagnostics. -/
theorem read_of_namespaces (config : Config) (permitted : Bool) (query : Text) :
    Query.read (ofConfig { config with
      features := { config.features with namespaces := permitted } }) query =
        Query.read (ofConfig config) query := by
  have halike : CombinesAlike (fun _ => True) (ofConfig config) (ofConfig { config with
      features := { config.features with namespaces := permitted } }) := by
    refine ⟨⟨_, config.defaultNamespaces, rfl⟩, rfl, fun _ _ _ _ => trivial, ?_⟩
    intro mode current incoming s _
    unfold combine
    rw [combine_of_has_eq (fun feature hne => ?_)]
    cases feature with
    | namespaces => exact absurd rfl hne
    | _ => rfl
  unfold Query.read
  rw [halike.read trivial]

/-- A namespace is read where every feature but that of namespaces is permitted,
and nothing is reported. -/
theorem unpermitted_namespace_is_read :
    let config : Config := { features := { FeatureSet.all with namespaces := false } }
    let q := Query.read (ofConfig config) "[[Help:+]]".toList
    config.check = .ok config ∧ config.defaultNamespaces = none ∧
      config.features.has .namespaces = false ∧
      q.description = .inNamespace 12 "Help".toList [] ∧ q.diagnostics = [] := by
  intro config q
  have hread : q.description = .inNamespace 12 "Help".toList [] ∧ q.diagnostics = [] := by
    unfold q Query.read read
    rw [readSubquery_ne_nil (by decide +kernel), readAlternatives_openAtom (by decide +kernel),
      readAtom_article (by decide +kernel) (by decide +kernel) (by decide +kernel),
      articleAtom_last (by decide +kernel) (by decide +kernel),
      readAlternatives_finish (by decide +kernel)]
    decide +kernel
  exact ⟨rfl, rfl, rfl, hread.1, hread.2⟩

end Reader

end InlineQuery
