/-
Default namespaces only narrow a query.

A wiki's default namespaces are a condition that its readers add to those of the
query. Where nothing is reported, adding it is all they do: the same text is
read without diagnostics whether or not there are default namespaces, and what
satisfies the tree read with them satisfies the one read without them, whatever
the world is like (`read_narrowed`).

# The invariant

The two trees need not look alike. In one of them the restriction is one more
conjunct, or stands in the place of a wildcard, and category lists may be merged
in one tree that it keeps apart in the other. What the readers keep is that in
the same place the condition of one entails that of the other (`Entails`). This
passes through everything that is built (`entails_merge`, `entails_describe`),
and the restriction can only be added on the side where it does no harm.

One thing could come between them: an alternative without any condition may
become the restriction, and only the reader without one then loses the
subquery. But losing it is reported.
-/
import InlineQuery.Proofs.Reading.Comparison
import InlineQuery.Proofs.Reading.Meaning

namespace InlineQuery

universe u

-- =============================================================== entailment

namespace Description

/-- In every world, what satisfies the first condition satisfies the second. -/
def Entails (a b : Description) : Prop :=
  ∀ ⦃Entity : Type u⦄ (I : Interpretation Entity) (e : Entity), a.Holds I e → b.Holds I e

theorem Entails.refl (d : Description) : Entails.{u} d d := fun _ _ _ h => h

theorem Entails.trans {a b c : Description} (hab : Entails.{u} a b) (hbc : Entails.{u} b c) :
    Entails.{u} a c := fun _ I e hholds => hbc I e (hab I e hholds)

theorem entails_thing (d : Description) (ps : List PrintRequest) : Entails.{u} d (.thing ps) :=
  fun _ _ _ _ => trivial

theorem entails_someProperty {inner inner' : Description} (h : Entails.{u} inner inner')
    (property : Property) (ps qs : List PrintRequest) :
    Entails.{u} (.someProperty property inner ps) (.someProperty property inner' qs) := by
  intro Entity I e hholds
  rw [Holds] at hholds ⊢
  obtain ⟨value, hrelated, hinner⟩ := hholds
  exact ⟨value, hrelated, h I value hinner⟩

theorem entails_merge (mode : Mode) {a a' b b' : Description} (ha : Entails.{u} a a')
    (hb : Entails.{u} b b') : Entails.{u} (mode.merge a b) (mode.merge a' b') := by
  intro Entity I e
  cases mode with
  | conjunctive =>
    rw [Mode.holds_merge_conjunctive, Mode.holds_merge_conjunctive]
    exact And.imp (ha I e) (hb I e)
  | disjunctive =>
    rw [Mode.holds_merge_disjunctive, Mode.holds_merge_disjunctive]
    exact Or.imp (ha I e) (hb I e)

/-- One more conjunct only narrows a condition. -/
theorem entails_merge_left (a b : Description) : Entails.{u} (Mode.merge .conjunctive a b) a :=
  fun _ _ _ hholds => ((Mode.holds_merge_conjunctive a b).1 hholds).1

theorem entails_merge_right (a b : Description) : Entails.{u} (Mode.merge .conjunctive a b) b :=
  fun _ _ _ hholds => ((Mode.holds_merge_conjunctive a b).1 hholds).2

end Description

namespace Reader

open Description

theorem entails_describe (c : Chain) {inner inner' : Description} (h : Entails.{u} inner inner') :
    Entails.{u} (c.describe inner) (c.describe inner') := by
  unfold Chain.describe
  induction c.outer ++ [c.last] with
  | nil => exact h
  | cons property rest ih => exact entails_someProperty ih property [] []

-- =========================================================== the comparison

/-- Readings without diagnostics are compared with those in which every condition
entails the one that stands in its place. -/
def narrowing : Comparison :=
  ⟨fun s => s.diagnostics = [], fun d d' => Entails.{u} d' d, False⟩

theorem conditions_merge (mode : Mode) {current current' incoming incoming' : Option Description}
    (hcurrent : narrowing.{u}.Conditions current current')
    (hincoming : narrowing.{u}.Conditions incoming incoming') :
    narrowing.{u}.Conditions (current.merge mode.merge incoming)
      (current'.merge mode.merge incoming') := by
  cases hcurrent with
  | none =>
    cases hincoming with
    | none => exact .none
    | some hincoming => exact .some hincoming
  | some hcurrent =>
    cases hincoming with
    | none => exact .some hcurrent
    | some hincoming => exact .some (entails_merge mode hcurrent hincoming)

/-- On the side where there is a restriction, it may be added to any
alternative. -/
theorem finished_restrict {d d' : Option Description} (defaults : Description)
    (h : narrowing.{u}.Finished d d') :
    narrowing.{u}.Finished d (d'.merge (Mode.merge .conjunctive) (some defaults)) := by
  intro hsome
  cases h hsome with
  | none => exact absurd hsome (by simp [narrowing])
  | some hentails => exact .some ((entails_merge_left _ _).trans hentails)

variable {r r' : Reader}

section permitted

variable (hdefaults : r.defaults = none) (hall : ∀ feature, r.config.features.has feature = true)
  (hall' : ∀ feature, r'.config.features.has feature = true)

include hall' in
/-- Finishing an alternative begins another one, and reports nothing. -/
theorem finishAlternative_of_permitted (p : Progress) (s : State) :
    (r'.finishAlternative p s).1.current = none ∧ (r'.finishAlternative p s).2 = s := by
  simp only [finishAlternative, restrictAll_of_permitted hall', combine_of_permitted hall']
  split
  · exact ⟨rfl, rfl⟩
  · split
    · exact ⟨rfl, rfl⟩
    · split <;> exact ⟨rfl, rfl⟩

include hdefaults hall'

/-- A relation that a restriction on the second side does not break passes to the
alternatives with one more finished. -/
theorem forall₂_finishAlternative {R : Option Description → Option Description → Prop}
    (hrestrict : ∀ defaults d d', R d d' → R d (d'.merge (Mode.merge .conjunctive) (some defaults)))
    {p p' : Progress} (hfinished : List.Forall₂ R p.finished p'.finished)
    (hcurrent : R p.current p'.current) (s s' : State) :
    List.Forall₂ R (r.finishAlternative p s).1.finished
      (r'.finishAlternative p' s').1.finished := by
  have happend {finished : List (Option Description)} {last : Option Description}
      (hfinished : List.Forall₂ R p.finished finished) (hlast : R p.current last) :
      List.Forall₂ R (p.finished ++ [p.current]) (finished ++ [last]) :=
    List.rel_append hfinished (.cons hlast .nil)
  simp only [finishAlternative, hdefaults, restrictAll_of_permitted hall',
    combine_of_permitted hall']
  split
  · exact happend hfinished hcurrent
  · next defaults _ =>
    split
    · exact happend (List.forall₂_map_right_iff.2 (hfinished.imp (hrestrict defaults))) hcurrent
    · split
      · exact happend hfinished (hrestrict defaults _ _ hcurrent)
      · exact happend hfinished hcurrent

include hall

theorem narrowed_finishAlternative {p p' : Progress} (hp : narrowing.{u}.Alternatives p p')
    (s : State) :
    (r'.finishAlternative p' s).2 = (r.finishAlternative p s).2 ∧
      narrowing.{u}.Alternatives (r.finishAlternative p s).1 (r'.finishAlternative p' s).1 := by
  obtain ⟨hcurrent, hstate⟩ := finishAlternative_of_permitted hall p s
  obtain ⟨hcurrent', hstate'⟩ := finishAlternative_of_permitted hall' p' s
  refine ⟨hstate'.trans hstate.symm, ?_, ?_, False.elim, False.elim⟩
  · rw [hcurrent, hcurrent']
    exact .none
  · exact forall₂_finishAlternative hdefaults hall' (fun defaults _ _ => finished_restrict defaults)
      hp.finished hp.current.finished s s

/-- A reader with a restriction goes along with one that has none, and narrows
what it reads. -/
theorem parallel_narrowing (hwiki : r.SameWiki r') : narrowing.{u}.Parallel r r' where
  wiki := hwiki
  quiet_of_precedes s t hprecedes hquiet := List.prefix_nil.1 (hquiet ▸ hprecedes)
  refl := Entails.refl
  combine mode current current' incoming incoming' s hcurrent hincoming _ := by
    rw [combine_of_permitted hall, combine_of_permitted hall']
    exact ⟨rfl, conditions_merge mode hcurrent hincoming⟩
  wildcard valueType := by
    have hthing : r.wildcard valueType = .thing [] := by
      unfold wildcard
      rw [hdefaults]
      cases valueType <;> rfl
    rw [hthing]
    exact entails_thing _ []
  describe c _ _ := entails_describe c
  finishAlternative p p' s hp _ := narrowed_finishAlternative hdefaults hall hall' hp s
  lost mark p s hmark hlost hquiet := by
    have hlt := length_lt_conclude_lost r hmark (Bool.or_eq_true_iff.2 (.inr hlost))
    rw [show (r.conclude mark p s).state.diagnostics = [] from hquiet] at hlt
    exact absurd hlt (Nat.not_lt_zero mark)

end permitted

-- ============================================================ whole queries

theorem read_of_no_defaults (hdefaults : r.defaults = none)
    (hall : ∀ feature, r.config.features.has feature = true) (query : Text) :
    r.read query =
      ⟨(r.readSubquery false (.start query)).val.result.getD (.thing []),
        (r.readSubquery false (.start query)).val.state⟩ := by
  unfold read
  dsimp only
  split
  · rfl
  · rw [hdefaults, combine_of_permitted hall]
    cases (r.readSubquery false (.start query)).val.result <;> rfl

theorem entails_getD {result result' : Option Description}
    (h : narrowing.{u}.Conditions result result') :
    Entails.{u} (result'.getD (.thing [])) (result.getD (.thing [])) := by
  cases h with
  | none => exact .refl _
  | some hentails => exact hentails

theorem narrowed_read (hdefaults : r.defaults = none)
    (hall : ∀ feature, r.config.features.has feature = true)
    (hall' : ∀ feature, r'.config.features.has feature = true) (hwiki : r.SameWiki r')
    {query : Text} (hquiet : (r.read query).state.diagnostics = []) :
    (r'.read query).state.diagnostics = [] ∧
      Entails.{u} (r'.read query).description (r.read query).description := by
  rw [read_of_no_defaults hdefaults hall] at hquiet ⊢
  have hwhole := (parallel_narrowing.{u} hdefaults hall hall' hwiki).preserved.subquery false
    (.start query) hquiet
  unfold read
  dsimp only
  split
  · exact ⟨hwhole.state ▸ hquiet, entails_getD hwhole.result⟩
  · rw [combine_of_permitted hall']
    refine ⟨hwhole.state ▸ hquiet, ?_⟩
    have hentails := entails_getD hwhole.result
    revert hentails
    cases r'.defaults with
    | none => cases (r'.readSubquery false (.start query)).val.result <;> exact id
    | some defaults =>
      cases (r'.readSubquery false (.start query)).val.result with
      | none => exact fun hthing => (entails_thing defaults []).trans hthing
      | some d => exact fun hentails => (entails_merge_right defaults d).trans hentails

/-- **Default namespaces only narrow a query.** On a wiki that permits
everything, a query that is read without diagnostics where there are no default
namespaces is read without any where there are some, and whatever satisfies the
tree read with them satisfies the tree read without them, in every world. -/
theorem read_narrowed (config : Config) (hall : ∀ feature, config.features.has feature = true)
    (ids : List NamespaceId) (query : Text)
    (hquiet :
      (Query.read (ofConfig { config with defaultNamespaces := none }) query).diagnostics = []) :
    (Query.read (ofConfig { config with defaultNamespaces := some ids }) query).diagnostics = [] ∧
      Entails.{u}
        (Query.read (ofConfig { config with defaultNamespaces := some ids }) query).description
        (Query.read (ofConfig { config with defaultNamespaces := none }) query).description := by
  have hwiki : (ofConfig { config with defaultNamespaces := none }).SameWiki
    (ofConfig { config with defaultNamespaces := some ids }) := ⟨config.features, some ids, rfl⟩
  exact narrowed_read rfl hall hall hwiki hquiet

/-- A property that may have any value, on a wiki that restricts queries to its
help pages: the restriction is added to the pages and to the values. -/
theorem read_narrowed_any_value :
    let config : Config := {}
    let query := "[[A::+]]".toList
    let free := Query.read (ofConfig { config with defaultNamespaces := none }) query
    let restricted := Query.read (ofConfig { config with defaultNamespaces := some [12] }) query
    let help := Description.inNamespace 12 "Help".toList []
    let having (d : Description) := Description.someProperty ⟨"A".toList, false⟩ d []
    free.diagnostics = [] ∧ free.description = having (.thing []) ∧
      restricted.description = .conjunction [help, having help] [] ∧
      restricted.diagnostics = [] ∧ Entails.{0} restricted.description free.description := by
  intro config query free restricted help having
  have hall : ∀ feature, config.features.has feature = true := FeatureSet.has_all
  have hfree : free.diagnostics = [] ∧ free.description = having (.thing []) := by
    have hchain : chain config "A".toList = .ok ⟨[], ⟨"A".toList, false⟩, .page⟩ := rfl
    unfold free Query.read read
    rw [readSubquery_ne_nil (by decide +kernel), readAlternatives_openAtom (by decide +kernel),
      readAtom_property (by decide +kernel) (by decide +kernel) (by decide +kernel)
        (by decide +kernel),
      readProperty_ok hchain,
      readValues_last (by rw [readOneValue_wildcard (by decide +kernel)]; decide +kernel),
      readOneValue_wildcard (by decide +kernel), readAlternatives_finish (by decide +kernel)]
    decide +kernel
  have hrestricted : restricted.description = .conjunction [help, having help] [] := by
    have hchain : chain { config with defaultNamespaces := some [12] } "A".toList =
      .ok ⟨[], ⟨"A".toList, false⟩, .page⟩ := rfl
    unfold restricted Query.read read
    rw [readSubquery_ne_nil (by decide +kernel), readAlternatives_openAtom (by decide +kernel),
      readAtom_property (by decide +kernel) (by decide +kernel) (by decide +kernel)
        (by decide +kernel),
      readProperty_ok hchain,
      readValues_last (by rw [readOneValue_wildcard (by decide +kernel)]; decide +kernel),
      readOneValue_wildcard (by decide +kernel), readAlternatives_finish (by decide +kernel)]
    decide +kernel
  exact ⟨hfree.1, hfree.2, hrestricted, read_narrowed config hall [12] query hfree.1⟩

end Reader

end InlineQuery
