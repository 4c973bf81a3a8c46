/-
What default namespaces change in the diagnostics.

A default restriction is a condition, and it is added to alternatives that have
none of their own as well. Such an alternative is a gap; without the restriction
its whole subquery is dropped, and one that is the value of a property may leave
the property without a value. Both are reported (`Diagnostic.isGap`). With the
restriction the gap is filled, if the alternative has to be restricted, before
anybody looks. So default namespaces can hide a gap
(`defaults_hide_empty_alternative`). They can also make one be noticed: where only
one of two gaps is filled, what fills it is lost with the other.

Reports of gaps are all that they can change. The diagnostics of any query, read
with and without default namespaces, agree in everything else, and if no subquery
has a gap, they agree altogether (`diagnostics_with_defaults`).

# The invariant

The two readings take the same way through the text, and whatever has a condition
in the reading without the restriction has one in the other (`Covered`). The
converse fails at gaps only, so it is carried along on the assumption that there
are none (`lossless`); and so is, for whole states, that all diagnostics agree
(`Beside`). Atoms without a subquery are read alongside each other. At the end of
a subquery nobody can lose a condition that the other one keeps, unless there is
a gap.
-/
import InlineQuery.Proofs.Reading.Alongside
import InlineQuery.Proofs.Reading.Independence
import InlineQuery.Proofs.Reading.Narrowing

namespace InlineQuery

/-- The diagnostic reports a subquery, or the values of a property, that came to
no condition. -/
def Diagnostic.isGap : Diagnostic → Bool
  | .emptySubquery => true
  | .missingValue _ => true
  | _ => false

namespace State

/-- The diagnostics that do not report a gap. -/
def others (s : State) : List Diagnostic := s.diagnostics.filter fun problem => !problem.isGap

/-- The second state is the first one, perhaps with the report of a gap. -/
def UpToGap (s t : State) : Prop :=
  t = s ∨ ∃ problem : Diagnostic, problem.isGap = true ∧ t = s.report problem

theorem UpToGap.same {s t : State} (h : s.UpToGap t) :
    t.rest = s.rest ∧ t.blocks = s.blocks ∧ t.others = s.others := by
  rcases h with rfl | ⟨problem, hgap, rfl⟩
  · exact ⟨rfl, rfl, rfl⟩
  · refine ⟨rfl, rfl, ?_⟩
    rw [others, report, List.filter_append]
    simp [hgap, others]

/-- Two readers have the same text left and the same blocks open, and agree in all
diagnostics that do not report a gap; in all diagnostics, if nothing is lost. -/
structure Beside (lossless : Prop) (s s' : State) : Prop where
  rest : s'.rest = s.rest
  blocks : s'.blocks = s.blocks
  others : s'.others = s.others
  diagnostics : lossless → s'.diagnostics = s.diagnostics

namespace Beside

variable {lossless : Prop} {s s' t t' : State}

theorem refl (s : State) : Beside lossless s s := ⟨rfl, rfl, rfl, fun _ => rfl⟩

theorem alongside (h : Beside lossless s s') : Alongside s s' s s' := .refl h.rest h.blocks

/-- Where both readers make the same reports, they stay beside each other. -/
theorem along (h : Beside lossless s s') (halong : Alongside s s' t t') :
    Beside lossless t t' := by
  obtain ⟨more, hmore, hmore'⟩ := halong.reports
  refine ⟨halong.rest, halong.blocks, ?_, fun hlossless => ?_⟩
  · have hothers : s'.diagnostics.filter (fun problem => !problem.isGap) =
        s.diagnostics.filter (fun problem => !problem.isGap) := h.others
    rw [State.others, State.others, hmore, hmore', List.filter_append, List.filter_append, hothers]
  · rw [hmore, hmore', h.diagnostics hlossless]

/-- Where something is lost, it does not matter who reports it. -/
theorem up_to_gaps (h : Beside lossless s s') (hlossy : ¬ lossless) (ht : s.UpToGap t)
    (ht' : s'.UpToGap t') : Beside lossless t t' := by
  obtain ⟨hrest, hblocks, hothers⟩ := ht.same
  obtain ⟨hrest', hblocks', hothers'⟩ := ht'.same
  refine ⟨?_, ?_, ?_, fun hlossless => absurd hlossless hlossy⟩
  · rw [hrest, hrest', h.rest]
  · rw [hblocks, hblocks', h.blocks]
  · rw [hothers, hothers', h.others]

end Beside

end State

namespace Reader

open State

variable {r r' : Reader} {lossless : Prop} {s s' : State}

-- ================================================== conditions that are kept

/-- Where there is a condition without the restriction, there is one with it. In
a lossless reading, there is none elsewhere. -/
structure Covered (lossless : Prop) (d d' : Option Description) : Prop where
  kept : d.isSome = true → d'.isSome = true
  only : lossless → d'.isSome = true → d.isSome = true

theorem Covered.refl (d : Option Description) : Covered lossless d d := ⟨id, fun _ => id⟩

theorem covered_some (d d' : Description) : Covered lossless (some d) (some d') :=
  ⟨fun _ => rfl, fun _ _ => rfl⟩

theorem isSome_merge (f : Description → Description → Description) (a b : Option Description) :
    (a.merge f b).isSome = true ↔ a.isSome = true ∨ b.isSome = true := by
  cases a <;> cases b <;> simp [Option.merge]

theorem covered_merge (mode : Mode) {a a' b b' : Option Description} (ha : Covered lossless a a')
    (hb : Covered lossless b b') :
    Covered lossless (a.merge mode.merge b) (a'.merge mode.merge b') where
  kept := by
    rw [isSome_merge, isSome_merge]
    exact Or.imp ha.kept hb.kept
  only hlossless := by
    rw [isSome_merge, isSome_merge]
    exact Or.imp (ha.only hlossless) (hb.only hlossless)

/-- What came of the same part of a query. -/
structure Outcome.CoveredBy (lossless : Prop) (o o' : Outcome) : Prop where
  result : Covered lossless o.result o'.result
  state : Beside lossless o.state o'.state

/-- The same of two conditions that were combined. -/
structure Obtained.CoveredBy (lossless : Prop) (o o' : Obtained) : Prop where
  result : Covered lossless o.result o'.result
  state : Beside lossless o.state o'.state

/-- The same of the values of a property. -/
structure Members.CoveredBy (lossless : Prop) (m m' : Members) : Prop where
  result : Covered lossless m.result m'.result
  text : m'.terminator.text = m.terminator.text
  state : Beside lossless m.terminator.state m'.terminator.state

/-- How far the same subquery has been read. An alternative that has been finished
may have been restricted, in any reading. -/
structure Progress.CoveredBy (lossless : Prop) (p p' : Progress) : Prop where
  current : Covered lossless p.current p'.current
  finished : List.Forall₂ (fun d d' => d.isSome = true → d'.isSome = true) p.finished p'.finished

theorem none_notMem_of_forall₂ {ds ds' : List (Option Description)}
    (h : List.Forall₂ (fun d d' => d.isSome = true → d'.isSome = true) ds ds')
    (hds : none ∉ ds) : none ∉ ds' := by
  induction h with
  | nil => exact hds
  | @cons d d' ds ds' hkept _ ih =>
    rw [List.mem_cons, not_or] at hds ⊢
    have hsome : d'.isSome = true := hkept (Option.isSome_iff_ne_none.2 (Ne.symm hds.1))
    exact ⟨Ne.symm (Option.isSome_iff_ne_none.1 hsome), ih hds.2⟩

theorem Progress.complete_iff {p : Progress} :
    p.Complete ↔ p.finished ≠ [] ∧ none ∉ p.finished := by
  rw [Progress.Complete, Bool.or_eq_false_iff, List.isEmpty_eq_false_iff, List.any_eq_false]
  refine and_congr_right fun _ => ⟨fun h hmem => h none hmem rfl, fun h d hd hnone => ?_⟩
  rw [Option.isNone_iff_eq_none] at hnone
  exact h (hnone ▸ hd)

theorem Progress.coveredBy_start (restrict : Bool) :
    (Progress.start restrict).CoveredBy lossless (.start restrict) :=
  ⟨.refl none, .nil⟩

-- =========================================================== calls with gaps

/-- No subquery that is read in the call has a gap. -/
def LosesNothing (r : Reader) (call : Call) : Prop :=
  ∀ mark p s, Relation.ReflTransGen r.Makes call (.concluding mark p s) → none ∉ p.finished

theorem LosesNothing.made {call call' : Call} (h : r.LosesNothing call)
    (hmakes : r.Makes call call') : r.LosesNothing call' :=
  fun mark p s hreached => h mark p s (.head hmakes hreached)

theorem LosesNothing.concluding {mark : Nat} {p : Progress} {s : State}
    (h : r.LosesNothing (.concluding mark p s)) : none ∉ p.finished :=
  h mark p s .refl

/-- A subquery does not count diagnostics that were made after it began. -/
def Call.Marked : Call → Prop
  | .alternatives mark _ _ s => mark ≤ s.diagnostics.length
  | .concluding mark _ s => mark ≤ s.diagnostics.length
  | _ => True

theorem Makes.marked {call call' : Call} (h : r.Makes call call') (hmarked : call.Marked) :
    call'.Marked := by
  have hle := h.precedes_before.length_le
  cases h <;> first
    | trivial
    | exact hle
    | exact Nat.le_trans hmarked hle

theorem Reached.marked {query : Text} {call : Call} (h : r.Reached query call) :
    call.Marked := by
  induction h with
  | refl => trivial
  | tail _ hmakes ih => exact hmakes.marked ih

/-- A reading without diagnostics has no gaps. -/
theorem losesNothing_of_quiet {query : Text} (hquiet : (r.read query).state.diagnostics = []) :
    r.LosesNothing (.query query) := by
  intro mark p s hreached hgap
  have hlost : (p.finished.isEmpty || p.finished.any Option.isNone) = true :=
    Bool.or_eq_true_iff.2 (.inr (List.any_eq_true.2 ⟨none, hgap, rfl⟩))
  have hlt := length_lt_conclude_lost r (Reached.marked hreached) hlost
  have hafter := (Reached.diagnostics_eq_nil hreached hquiet).1
  rw [show (r.conclude mark p s).state.diagnostics = [] from hafter] at hlt
  exact Nat.not_lt_zero mark hlt

section

variable (hwiki : r.SameWiki r') (hdefaults : r.defaults = none)
  (hall : ∀ feature, r.config.features.has feature = true)
  (hall' : ∀ feature, r'.config.features.has feature = true)

-- ============================================================== combinations

include hall hall'

theorem coveredBy_combine (mode : Mode) {current current' incoming incoming' : Option Description}
    (hcurrent : Covered lossless current current') (hincoming : Covered lossless incoming incoming')
    (h : Beside lossless s s') :
    (r.combine mode current incoming s).CoveredBy lossless
      (r'.combine mode current' incoming' s') := by
  rw [combine_of_permitted hall, combine_of_permitted hall']
  exact ⟨covered_merge mode hcurrent hincoming, h⟩

theorem coveredBy_addCondition {p p' : Progress} {o o' : Outcome} (hp : p.CoveredBy lossless p')
    (ho : o.CoveredBy lossless o') :
    (r.addCondition p o).1.CoveredBy lossless (r'.addCondition p' o').1 ∧
      Beside lossless (r.addCondition p o).2 (r'.addCondition p' o').2 := by
  have hcombined := coveredBy_combine hall hall' .conjunctive hp.current ho.result ho.state
  exact ⟨⟨hcombined.result, hp.finished⟩, hcombined.state⟩

theorem coveredBy_addSubquery (c : Chain) {result result' : Option Description} {o o' : Outcome}
    (hresult : Covered lossless result result') (ho : o.CoveredBy lossless o') :
    (r.addSubquery c result o).CoveredBy lossless (r'.addSubquery c result' o') := by
  unfold addSubquery
  split
  · exact coveredBy_combine hall hall' .disjunctive hresult ho.result ho.state
  · exact coveredBy_combine hall hall' .disjunctive hresult (.refl _)
      (ho.state.along (ho.state.alongside.report _))

include hwiki in
theorem coveredBy_addLiteral (c : Chain) {result result' : Option Description} (text : ValueText)
    (hresult : Covered lossless result result') (h : Beside lossless s s') :
    (r.addLiteral c result text s).CoveredBy lossless (r'.addLiteral c result' text s') := by
  have hmoved := h.alongside.moveTo text.rest
  unfold addLiteral
  rw [hwiki.value]
  have hcombined := coveredBy_combine hall hall' .disjunctive hresult
    (.refl (some (value r.config c.last c.valueType text.value).1))
    (h.along (alongside_reportAny (value r.config c.last c.valueType text.value).2 hmoved))
  exact ⟨hcombined.result, rfl, hcombined.state⟩

include hdefaults in
/-- The alternative under way is finished, and perhaps restricted. -/
theorem coveredBy_finishAlternative {p p' : Progress} (hp : p.CoveredBy lossless p')
    (h : Beside lossless s s') :
    (r.finishAlternative p s).1.CoveredBy lossless (r'.finishAlternative p' s').1 ∧
      Beside lossless (r.finishAlternative p s).2 (r'.finishAlternative p' s').2 := by
  obtain ⟨hcurrent, hstate⟩ := finishAlternative_of_permitted hall p s
  obtain ⟨hcurrent', hstate'⟩ := finishAlternative_of_permitted hall' p' s'
  refine ⟨⟨?_, ?_⟩, ?_⟩
  · rw [hcurrent, hcurrent']
    exact .refl none
  · exact forall₂_finishAlternative hdefaults hall'
      (fun defaults _ _ hkept hsome => (isSome_merge _ _ _).2 (.inl (hkept hsome)))
      hp.finished hp.current.kept s s'
  · rw [hstate, hstate']
    exact h

-- ==================================================== the ends of subqueries

omit hall' in
/-- A subquery ends in the state in which it is concluded, but for a gap. -/
theorem upToGap_conclude (mark : Nat) (p : Progress) (s : State) :
    s.UpToGap (r.conclude mark p s).state := by
  unfold conclude
  split
  · dsimp only
    split
    · exact .inr ⟨.emptySubquery, rfl, rfl⟩
    · exact .inl rfl
  · rw [combineAll_of_permitted hall]
    exact .inl rfl

omit hall' in
theorem isSome_conclude (mark : Nat) {p : Progress} (h : p.Complete) (s : State) :
    (r.conclude mark p s).result.isSome = true := by
  rw [conclude_of_permitted hall mark h]
  exact h.isSome

theorem coveredBy_conclude {mark mark' : Nat} {p p' : Progress} (hmark : lossless → mark' = mark)
    (hp : p.CoveredBy lossless p') (hgap : lossless → none ∉ p.finished)
    (h : Beside lossless s s') :
    (r.conclude mark p s).CoveredBy lossless (r'.conclude mark' p' s') := by
  by_cases hcomplete : p.Complete
  · obtain ⟨hne, hsome⟩ := Progress.complete_iff.1 hcomplete
    have hne' : p'.finished ≠ [] := by
      rw [← List.length_pos_iff, ← hp.finished.length_eq, List.length_pos_iff]
      exact hne
    have hcomplete' : p'.Complete :=
      Progress.complete_iff.2 ⟨hne', none_notMem_of_forall₂ hp.finished hsome⟩
    refine ⟨⟨fun _ => isSome_conclude hall' mark' hcomplete' s',
      fun _ _ => isSome_conclude hall mark hcomplete s⟩, ?_⟩
    rw [conclude_of_permitted hall mark hcomplete, conclude_of_permitted hall' mark' hcomplete']
    exact h
  · by_cases hlossless : lossless
    · -- nothing has been finished, and the reports depend on the diagnostics alone
      have hnil : p.finished = [] := by
        by_contra hne
        exact hcomplete (Progress.complete_iff.2 ⟨hne, hgap hlossless⟩)
      have hnil' : p'.finished = [] := by
        rw [← List.length_eq_zero_iff, ← hp.finished.length_eq, hnil, List.length_nil]
      simp only [conclude, hnil, hnil', List.isEmpty_nil, List.any_nil, Bool.or_false, if_true,
        Bool.false_or, h.diagnostics hlossless, hmark hlossless]
      refine ⟨.refl none, ?_⟩
      split
      · exact h.along (h.alongside.report _)
      · exact h
    · have hnone : (r.conclude mark p s).result = none := by
        unfold conclude
        rw [if_pos (Bool.not_eq_false _ ▸ hcomplete)]
      have hstate := h.up_to_gaps hlossless (upToGap_conclude hall mark p s)
        (upToGap_conclude hall' mark' p' s')
      refine ⟨⟨fun hsome => ?_, fun h => absurd h hlossless⟩, hstate⟩
      rw [hnone] at hsome
      cases hsome

theorem coveredBy_leaveSubquery {mark mark' : Nat} (restrict : Bool) (chunk : Text)
    {p p' : Progress} (hmark : lossless → mark' = mark) (hp : p.CoveredBy lossless p')
    (hgap : lossless → s.blocks.head? = some .subquery → none ∉ p.finished)
    (h : Beside lossless s s') :
    (r.leaveSubquery mark restrict chunk p s).CoveredBy lossless
      (r'.leaveSubquery mark' restrict chunk p' s') := by
  have hleave := h.alongside.leave
  unfold leaveSubquery
  rw [h.blocks, h.alongside.expected?_eq]
  split
  · next hopen =>
    exact coveredBy_conclude hall hall' hmark hp (fun hlossless => hgap hlossless hopen)
      (h.along hleave)
  · exact ⟨.refl none, h.along (hleave.report _)⟩

-- ========================================================== ends of atoms

omit hall hall' in
theorem coveredBy_of_alongside {o o' : Outcome} (h : Beside lossless s s')
    (ho : o'.result = o.result ∧ Alongside s s' o.state o'.state) : o.CoveredBy lossless o' :=
  ⟨ho.1.symm ▸ .refl o.result, h.along ho.2⟩

omit hall hall' in
include hwiki in
/-- An atom that has a condition is not reported for the lack of one. -/
theorem coveredBy_finishAtom (mark mark' : Nat) (d d' : Description) {c c' : Chunk}
    (htext : c'.text = c.text) (h : Beside lossless c.state c'.state) :
    (r.finishAtom mark false false (some d) c).CoveredBy lossless
      (r'.finishAtom mark' false false (some d') c') where
  result := by
    rw [result_finishAtom, result_finishAtom]
    exact covered_some d d'
  state := h.along (alongside_finishAtom hwiki ⟨htext, h.alongside⟩ false false rfl)

omit hall hall' in
include hwiki in
/-- An atom in which something was reported is given up without another
report. -/
theorem coveredBy_abandonAtom {mark mark' : Nat} (hmark : mark < s.diagnostics.length)
    (hmark' : mark' < s'.diagnostics.length) (h : Beside lossless s s') :
    (r.abandonAtom mark false s).CoveredBy lossless (r'.abandonAtom mark' false s') where
  result := by
    rw [abandonAtom, abandonAtom, result_finishAtom, result_finishAtom]
    exact .refl none
  state := by
    refine h.along (alongside_abandonAtom hwiki h.alongside ?_)
    rw [beq_eq_false_iff_ne.2 (Nat.ne_of_gt hmark), beq_eq_false_iff_ne.2 (Nat.ne_of_gt hmark')]

omit hall hall' in
include hwiki in
theorem coveredBy_closeProperty (mark mark' : Nat) (c : Chain) {values values' : Members}
    (h : values.CoveredBy lossless values') :
    (r.closeProperty mark false c values).CoveredBy lossless
      (r'.closeProperty mark' false c values') := by
  obtain ⟨result, terminator⟩ := values
  obtain ⟨result', terminator'⟩ := values'
  obtain ⟨hresult, htext, hstate⟩ := h
  unfold closeProperty
  cases result with
  | some inner =>
    obtain ⟨inner', rfl⟩ := Option.isSome_iff_exists.1 (hresult.kept rfl)
    exact coveredBy_finishAtom hwiki mark mark' _ _ htext hstate
  | none =>
    cases result' with
    | none =>
      exact coveredBy_finishAtom hwiki mark mark' _ _ htext
        (hstate.along (hstate.alongside.report _))
    | some inner' =>
      have hlossy : ¬ lossless := fun hlossless => nomatch hresult.only hlossless rfl
      exact coveredBy_finishAtom hwiki mark mark' _ _ htext
        (hstate.up_to_gaps hlossy (.inr ⟨.missingValue c.last.write, rfl, rfl⟩) (.inl rfl))

-- ============================================================ all readings

/-- What the other reader makes of the same text, from any state beside that of
the first one. -/
def gapInvariant (lossless : Prop) (r r' : Reader) : Invariant where
  subquery restrict s o := (lossless → r.LosesNothing (.subquery restrict s)) →
    ∀ s', Beside lossless s s' → o.CoveredBy lossless (r'.readSubquery restrict s').val
  alternatives mark restrict p s o :=
    (lossless → r.LosesNothing (.alternatives mark restrict p s)) →
    ∀ mark' p' s', (lossless → mark' = mark) → p.CoveredBy lossless p' → Beside lossless s s' →
      o.CoveredBy lossless (r'.readAlternatives mark' restrict p' s').val
  atom restrict s o := restrict = false → (lossless → r.LosesNothing (.atom restrict s)) →
    ∀ s', Beside lossless s s' → o.CoveredBy lossless (r'.readAtom restrict s').val
  property mark restrict name s o := restrict = false → mark ≤ s.diagnostics.length →
    (lossless → r.LosesNothing (.property mark restrict name s)) →
    ∀ mark' s', mark' ≤ s'.diagnostics.length → Beside lossless s s' →
      o.CoveredBy lossless (r'.readProperty mark' restrict name s').val
  values c result s m := (lossless → r.LosesNothing (.values c result s)) →
    ∀ result' s', Covered lossless result result' → Beside lossless s s' →
      m.CoveredBy lossless (r'.readValues c result' s').val
  oneValue c result s m := (lossless → r.LosesNothing (.oneValue c result s)) →
    ∀ result' s', Covered lossless result result' → Beside lossless s s' →
      m.CoveredBy lossless (r'.readOneValue c result' s').val

include hwiki hdefaults in
theorem gapInvariant_preserved (lossless : Prop) : (gapInvariant lossless r r').Preserved r where
  subquery_nil restrict s hnil hlossless s' h := by
    have hnext := alongside_next hwiki h.alongside
    rw [readSubquery_nil (by rwa [hnext.text])]
    exact coveredBy_conclude hall hall'
      (fun hl => congrArg List.length (h.diagnostics hl)) (Progress.coveredBy_start restrict)
      (fun _ => List.not_mem_nil) (h.along (alongside_leaveAtEnd hnext.state))
  subquery_alternatives restrict s hne ho hlossless s' h := by
    have hnext := alongside_next hwiki h.alongside
    rw [readSubquery_ne_nil (by rwa [hnext.text])]
    exact ho (fun hl => (hlossless hl).made (.alternatives restrict s hne)) _ _ _
      (fun hl => congrArg List.length (h.diagnostics hl)) (Progress.coveredBy_start restrict) h
  finish mark restrict p s hnil hlossless mark' p' s' hmark hp h := by
    have hfinish := Token.ofChunk_eq_finish_iff.2 hnil
    have hnext := alongside_next hwiki h.alongside
    obtain ⟨hfinished, hstate⟩ :=
      coveredBy_finishAlternative hdefaults hall hall' hp (h.along hnext.state)
    rw [readAlternatives_finish (by rwa [hnext.text])]
    exact coveredBy_conclude hall hall' hmark hfinished
      (fun hl => ((hlossless hl).made (.concludeAtEnd mark restrict p s hfinish)).concluding)
      (hstate.along (alongside_leaveAtEnd hstate.alongside))
  openAtom mark restrict p s p₁ s₁ htoken hadd hatom ho hlossless mark' p' s' hmark hp h := by
    have hnext := alongside_next hwiki h.alongside
    have ho' := hatom rfl (fun hl => (hlossless hl).made (.atom mark restrict p s htoken)) _
      (h.along hnext.state)
    obtain ⟨hp₁, hs₁⟩ := coveredBy_addCondition hall hall' hp ho'
    rw [readAlternatives_openAtom (r := r') (by rwa [hnext.text])]
    have hbehind := fun hl => (hlossless hl).made (.behindAtom mark restrict p s htoken)
    rw [atomAt] at hbehind
    rw [hadd] at hp₁ hs₁ hbehind
    exact ho hbehind _ _ _ hmark hp₁ hs₁
  openQuery mark restrict p s p₁ s₁ htoken hadd hsub ho hlossless mark' p' s' hmark hp h := by
    have hnext := alongside_next hwiki h.alongside
    have ho' := hsub (fun hl => (hlossless hl).made (.subquery mark restrict p s htoken)) _
      (h.along (hnext.state.enter .subquery))
    obtain ⟨hp₁, hs₁⟩ := coveredBy_addCondition hall hall' hp ho'
    rw [readAlternatives_openQuery (r := r') (by rwa [hnext.text])]
    have hbehind := fun hl => (hlossless hl).made (.behindSubquery mark restrict p s htoken)
    rw [subqueryAt] at hbehind
    rw [hadd] at hp₁ hs₁ hbehind
    exact ho hbehind _ _ _ hmark hp₁ hs₁
  or mark restrict p s p₁ s₁ htoken hfinish ho hlossless mark' p' s' hmark hp h := by
    have hnext := alongside_next hwiki h.alongside
    obtain ⟨hp₁, hs₁⟩ := coveredBy_finishAlternative hdefaults hall hall' hp (h.along hnext.state)
    rw [readAlternatives_or (r := r') (by rwa [hnext.text])]
    have hbehind := fun hl => (hlossless hl).made (.behindOr mark restrict p s htoken)
    rw [finishedAt] at hbehind
    rw [hfinish] at hp₁ hs₁ hbehind
    exact ho hbehind _ _ _ hmark hp₁ hs₁
  closeQuery mark restrict p s htoken hlossless mark' p' s' hmark hp h := by
    have hnext := alongside_next hwiki h.alongside
    obtain ⟨hfinished, hstate⟩ :=
      coveredBy_finishAlternative hdefaults hall hall' hp (h.along hnext.state)
    rw [readAlternatives_closeQuery (by rwa [hnext.text]), hnext.text]
    exact coveredBy_leaveSubquery hall hall' restrict _ hmark hfinished
      (fun hl hopen =>
        ((hlossless hl).made (.concludeAtClosing mark restrict p s htoken hopen)).concluding)
      hstate
  wildcard mark restrict p s htoken ho hlossless mark' p' s' hmark hp h := by
    have hnext := alongside_next hwiki h.alongside
    rw [readAlternatives_wildcard (r := r') (by rwa [hnext.text])]
    exact ho (fun hl => (hlossless hl).made (.behindWildcard mark restrict p s htoken)) _ _ _
      hmark hp (h.along hnext.state)
  unexpected mark restrict p s s₁ hunexpected heq ho hlossless mark' p' s' hmark hp h := by
    subst heq
    have hnext := alongside_next hwiki h.alongside
    rw [readAlternatives_unexpected (r := r') (by rwa [hnext.text]), hnext.text]
    exact ho (fun hl => (hlossless hl).made (.behindUnexpected mark restrict p s hunexpected))
      _ _ _ hmark hp (h.along (hnext.state.report _))
  classAtom kind restrict s hclass hrestrict _ s' h := by
    subst hrestrict
    rw [readAtom_class (by rwa [hwiki.classKind?, firstChunk_of_alongside hwiki h.alongside])]
    exact coveredBy_of_alongside h
      (alongside_classAtom hwiki hall hall' kind (alongside_opened hwiki h.alongside))
  emptyAtom restrict s hclass hempty hrestrict _ s' h := by
    subst hrestrict
    have hfirst := firstChunk_of_alongside hwiki h.alongside
    rw [readAtom_empty (by rwa [hwiki.classKind?, hfirst]) (by rwa [hfirst]), hfirst]
    have hchunks : ChunksAlongside s s' ⟨Text.trim (r.firstChunk s), r.opened s⟩
      ⟨Text.trim (r.firstChunk s), r'.opened s'⟩ := ⟨rfl, alongside_opened hwiki h.alongside⟩
    exact coveredBy_of_alongside h (alongside_finishAtom_same hwiki hchunks false rfl)
  escapedAtom restrict s hs hcolon hrestrict _ s' h := by
    subst hrestrict
    have hs' := hs.of_alongside hwiki h.alongside
    have hfirst := firstChunk_of_alongside hwiki h.alongside
    have hcontent := alongside_nextAt hwiki .atomContent (alongside_opened hwiki h.alongside)
    rw [readAtom_escaped hs'.noClass hs'.notEmpty hs'.separator (by rwa [hfirst]), hfirst,
      hcontent.text]
    exact coveredBy_of_alongside h
      (alongside_articleAtom hwiki hall hall' none _ _ ⟨rfl, hcontent.state⟩)
  articleAtom restrict s hclass hempty hseparator hrestrict _ s' h := by
    subst hrestrict
    have hopened := alongside_opened hwiki h.alongside
    have hfirst := firstChunk_of_alongside hwiki h.alongside
    rw [readAtom_article (by rwa [hwiki.classKind?, hfirst]) (by rwa [hfirst])
      (by rwa [(alongside_next hwiki hopened).text]), hfirst]
    exact coveredBy_of_alongside h
      (alongside_articleAtom hwiki hall hall' none _ _ ⟨rfl, hopened⟩)
  propertyAtom restrict s hs hcolon ho hrestrict hlossless s' h := by
    have hs' := hs.of_alongside hwiki h.alongside
    have hfirst := firstChunk_of_alongside hwiki h.alongside
    have hseparator := alongside_next hwiki (alongside_opened hwiki h.alongside)
    rw [readAtom_property hs'.noClass hs'.notEmpty hs'.separator (by rwa [hfirst]), hfirst]
    exact ho hrestrict (Nat.le_refl _)
      (fun hl => (hlossless hl).made (.property restrict s hs hcolon)) _ _ (Nat.le_refl _)
      (h.along hseparator.state)
  property_error mark restrict name s problem hchain hrestrict hmark hlossless mark' s' hmark'
      h := by
    subst hrestrict
    rw [readProperty_error (by rw [hwiki.chain]; exact hchain)]
    refine coveredBy_abandonAtom hwiki ?_ ?_ (h.along (h.alongside.report problem))
    · rw [length_report]
      exact Nat.lt_succ_of_le hmark
    · rw [length_report]
      exact Nat.lt_succ_of_le hmark'
  property_ok mark restrict name s c hchain hvalues hrestrict hmark hlossless mark' s' hmark'
      h := by
    subst hrestrict
    rw [readProperty_ok (by rw [hwiki.chain]; exact hchain)]
    exact coveredBy_closeProperty hwiki mark mark' c
      (hvalues (fun hl => (hlossless hl).made (.values mark false name s c hchain)) _ _
        (.refl none) h)
  values_more c result s result₁ s₁ hbars hresult hstate hfirst hothers hlossless result' s'
      hcovered h := by
    have hone := hfirst (fun hl => (hlossless hl).made (.oneValue c result s)) _ _ hcovered h
    rw [readValues_more (r := r') (by rwa [hone.text])]
    have hbehind := fun hl => (hlossless hl).made (.behindValue c result s hbars)
    rw [hresult, hstate] at hbehind
    have hresult₁ := hone.result
    have hstate₁ := hone.state
    rw [hresult] at hresult₁
    rw [hstate] at hstate₁
    exact hothers hbehind _ _ hresult₁ hstate₁
  values_last c result s hlast hone hlossless result' s' hcovered h := by
    have hlast' := hone (fun hl => (hlossless hl).made (.oneValue c result s)) _ _ hcovered h
    rwa [readValues_last (r := r') (by rwa [hlast'.text])]
  value_wildcard c result s htoken hlossless result' s' hcovered h := by
    have hnext := alongside_next hwiki h.alongside
    rw [readOneValue_wildcard (by rwa [hnext.text])]
    have hcombined := coveredBy_combine hall hall' .disjunctive hcovered
      (covered_some (r.wildcard c.valueType) (r'.wildcard c.valueType)) (h.along hnext.state)
    have hfollowing := alongside_next hwiki hcombined.state.alongside
    exact ⟨hcombined.result, hfollowing.text, hcombined.state.along hfollowing.state⟩
  value_openQuery c result s combined htoken heq hsub hlossless result' s' hcovered h := by
    subst heq
    have hnext := alongside_next hwiki h.alongside
    rw [readOneValue_openQuery (by rwa [hnext.text])]
    have hcombined := coveredBy_addSubquery hall hall' c hcovered
      (hsub (fun hl => (hlossless hl).made (.valueSubquery c result s htoken)) _
        (h.along (hnext.state.enter .subquery)))
    have hfollowing := alongside_next hwiki hcombined.state.alongside
    exact ⟨hcombined.result, hfollowing.text, hcombined.state.along hfollowing.state⟩
  value_delimiter c result s hquery hdelimiter hlossless result' s' hcovered h := by
    have hnext := alongside_next hwiki h.alongside
    rw [readOneValue_delimiter (by rwa [hnext.text]) (by rwa [hnext.text])]
    exact ⟨hcovered, hnext.text, h.along hnext.state⟩
  value_literal c result s htoken _ result' s' hcovered h := by
    have hnext := alongside_next hwiki h.alongside
    rw [readOneValue_literal (by rwa [hnext.text]), hwiki.labels, hnext.text, hnext.state.rest]
    exact coveredBy_addLiteral hwiki hall hall' c
      (readValue r.config.labels (r.next s).text (r.next s).state.rest) hcovered
      (h.along hnext.state)

end

-- ============================================================ whole queries

/-- The restriction of the whole query reports nothing. -/
theorem state_read_of_permitted (hall : ∀ feature, r.config.features.has feature = true)
    (query : Text) : (r.read query).state = (r.readSubquery false (.start query)).val.state := by
  unfold read
  dsimp only
  split
  · rfl
  · rw [combine_of_permitted hall]

/-- **Default namespaces change nothing but the reports of gaps.** On a wiki that
permits everything, whatever its default namespaces, the diagnostics of every
query are those that it has without default namespaces, in the same order, but for
the reports of subqueries and properties that came to no condition. If every
alternative that is read without default namespaces has a condition, at any depth
of the query, the diagnostics are all the same. -/
theorem diagnostics_with_defaults (config : Config)
    (hall : ∀ feature, config.features.has feature = true) (ids : List NamespaceId)
    (query : Text) :
    let free := ofConfig { config with defaultNamespaces := none }
    let restricted := ofConfig { config with defaultNamespaces := some ids }
    (Query.read restricted query).diagnostics.filter (fun problem => !problem.isGap) =
        (Query.read free query).diagnostics.filter (fun problem => !problem.isGap) ∧
      (free.LosesNothing (.query query) →
        (Query.read restricted query).diagnostics = (Query.read free query).diagnostics) := by
  intro free restricted
  have hwiki : free.SameWiki restricted := ⟨config.features, some ids, rfl⟩
  have hbeside (lossless : Prop) (h : lossless → free.LosesNothing (.query query)) :
      Beside lossless (free.read query).state (restricted.read query).state := by
    rw [state_read_of_permitted hall, state_read_of_permitted hall]
    have hwhole := (gapInvariant_preserved hwiki rfl hall hall lossless).subquery false
      (.start query) (fun hl => (h hl).made (.whole query)) _ (.refl _)
    exact hwhole.state
  exact ⟨(hbeside False False.elim).others, fun h => (hbeside True fun _ => h).diagnostics trivial⟩

/-- Two alternatives that have conditions, of which the first one is restricted to
the main namespace since the second one settles its namespace. -/
theorem diagnostics_with_defaults_alternatives :
    let config : Config := {}
    let query := "[[A::+]] OR [[Berlin]]".toList
    let free := ofConfig { config with defaultNamespaces := none }
    free.LosesNothing (.query query) ∧
      (Query.read (ofConfig { config with defaultNamespaces := some [0] }) query).diagnostics =
        (Query.read free query).diagnostics := by
  intro config query free
  have hchain : chain config "A".toList = .ok ⟨[], ⟨"A".toList, false⟩, .page⟩ := rfl
  have hquiet :
      ((ofConfig { config with defaultNamespaces := none }).read query).state.diagnostics = [] := by
    rw [state_read_of_permitted FeatureSet.has_all, readSubquery_ne_nil (by decide +kernel),
      readAlternatives_openAtom (by decide +kernel),
      readAtom_property (by decide +kernel) (by decide +kernel) (by decide +kernel)
        (by decide +kernel),
      readProperty_ok hchain,
      readValues_last (by rw [readOneValue_wildcard (by decide +kernel)]; decide +kernel),
      readOneValue_wildcard (by decide +kernel), readAlternatives_or (by decide +kernel),
      readAlternatives_openAtom (by decide +kernel),
      readAtom_article (by decide +kernel) (by decide +kernel) (by decide +kernel),
      articleAtom_last (by decide +kernel) (by decide +kernel),
      readAlternatives_finish (by decide +kernel)]
    decide +kernel
  have hlossless := losesNothing_of_quiet hquiet
  exact ⟨hlossless,
    (diagnostics_with_defaults config FeatureSet.has_all [0] query).2 hlossless⟩

/-- Nothing is written behind `OR`. Without default namespaces the query is
dropped and that is reported; with them, the empty alternative becomes the main
namespace and nothing is. -/
theorem defaults_hide_empty_alternative :
    let query := "[[Berlin]] OR".toList
    (Query.read (ofConfig { defaultNamespaces := none }) query).diagnostics = [.emptySubquery] ∧
      (Query.read (ofConfig { defaultNamespaces := some [0] }) query).diagnostics = [] := by
  intro query
  unfold Query.read read
  constructor
  all_goals
    rw [readSubquery_ne_nil (by decide +kernel), readAlternatives_openAtom (by decide +kernel),
      readAtom_article (by decide +kernel) (by decide +kernel) (by decide +kernel),
      articleAtom_last (by decide +kernel) (by decide +kernel),
      readAlternatives_or (by decide +kernel), readAlternatives_finish (by decide +kernel)]
    decide +kernel

end Reader

end InlineQuery
