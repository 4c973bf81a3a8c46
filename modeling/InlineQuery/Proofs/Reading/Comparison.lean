/-
Two readers side by side.

What a wiki permits and what it restricts queries to decide what becomes of the
conditions in a query, but not how its text is read. Readers for wikis that
differ in nothing else cut the text into the same chunks, and find the same
atoms and subqueries in it. What they make of these may differ, and so may what
they report of it.

# The comparison

One reader is observed, and the other one is compared with it. A `Comparison`
says which readings of the first are of interest, those that end in a `quiet`
state, and how a condition of the first is then related to that of the second.
`Parallel` lists what has to be shown of two readers for this to be so of whole
readings: one field for each of the operations that look at what is permitted,
or at the restriction. The induction is that over the readings of the first
reader; at every step the second one is in the same state and takes the same
step (`Parallel.preserved`).
-/
import Mathlib.Data.List.Forall2
import InlineQuery.Proofs.Reading.Nesting

namespace InlineQuery

namespace Reader

-- ================================================================= one wiki

/-- The readers are for wikis that differ in nothing but in what they permit and
in how they restrict queries. -/
def SameWiki (r r' : Reader) : Prop :=
  ∃ features defaultNamespaces,
    r'.config = { r.config with features := features, defaultNamespaces := defaultNamespaces }

theorem chainFrom_congr {config config' : Config}
    (hcapital : config'.capitalLinks = config.capitalLinks)
    (htype : config'.valueType = config.valueType) (outer : List Property) (name : Text)
    (names : List Text) : chainFrom config' outer name names = chainFrom config outer name names := by
  induction names generalizing outer name with
  | nil => rw [chainFrom, chainFrom, hcapital, htype]
  | cons following names ih => simp only [chainFrom, hcapital, htype, ih]

theorem chain_congr {config config' : Config}
    (hcapital : config'.capitalLinks = config.capitalLinks)
    (htype : config'.valueType = config.valueType) (t : Text) : chain config' t = chain config t := by
  unfold chain
  split
  · exact chainFrom_congr hcapital htype [] t []
  · exact chainFrom_congr hcapital htype [] _ _

namespace SameWiki

variable {r r' : Reader} (h : r.SameWiki r')

include h

/-- What does not look at these settings is the same for both readers. -/
theorem congr {α : Type} (f : Config → α)
    (hf : ∀ config features defaultNamespaces,
      f { config with features := features, defaultNamespaces := defaultNamespaces } = f config) :
    f r'.config = f r.config := by
  obtain ⟨features, defaultNamespaces, hconfig⟩ := h
  rw [hconfig]
  exact hf r.config features defaultNamespaces

theorem labels : r'.config.labels = r.config.labels :=
  h.congr Config.labels fun _ _ _ => rfl

theorem classKind? : Reader.classKind? r'.config = Reader.classKind? r.config :=
  h.congr Reader.classKind? fun _ _ _ => rfl

theorem classMember : Reader.classMember r'.config = Reader.classMember r.config :=
  h.congr Reader.classMember fun _ _ _ => rfl

theorem articleMember : Reader.articleMember r'.config = Reader.articleMember r.config :=
  h.congr Reader.articleMember fun _ _ _ => rfl

theorem value : Reader.value r'.config = Reader.value r.config :=
  h.congr Reader.value fun _ _ _ => rfl

theorem chain (t : Text) : Reader.chain r'.config t = Reader.chain r.config t := by
  refine h.congr (Reader.chain · t) fun config features defaultNamespaces => ?_
  apply chain_congr
  · rfl
  · rfl

theorem next : r'.next = r.next := by
  funext s
  unfold Reader.next
  rw [h.labels]

theorem nextAt : r'.nextAt = r.nextAt := by
  funext stop s
  unfold Reader.nextAt
  rw [h.labels]

theorem firstChunk : r'.firstChunk = r.firstChunk := by
  funext s
  unfold Reader.firstChunk
  rw [h.labels]

theorem opened : r'.opened = r.opened := by
  funext s
  unfold Reader.opened
  rw [h.labels]

theorem startsProperty {s : State} (hs : r.StartsProperty s) : r'.StartsProperty s where
  noClass := by
    rw [h.classKind?, h.firstChunk]
    exact hs.noClass
  notEmpty := by
    rw [h.firstChunk]
    exact hs.notEmpty
  separator := by
    rw [h.next, h.opened]
    exact hs.separator

theorem skipToClosing : r'.skipToClosing = r.skipToClosing := by
  funext s
  unfold Reader.skipToClosing
  rw [h.nextAt]

theorem skipLabel : r'.skipLabel = r.skipLabel := by
  funext c
  unfold Reader.skipLabel
  rw [h.skipToClosing]

theorem expectClosing : r'.expectClosing = r.expectClosing := by
  funext c
  unfold Reader.expectClosing
  rw [h.skipToClosing]

end SameWiki

-- ======================================================== what is compared

/-- How the readings of one reader are compared with those of another one. -/
structure Comparison where
  /-- The readings that end in such a state are compared. -/
  quiet : State → Prop
  /-- How a condition of the first reader is related to the second one's. -/
  condition : Description → Description → Prop
  /-- The readers go the same way, also where the first one loses a condition. -/
  lockstep : Prop

namespace Comparison

variable (C : Comparison)

/-- Both readers have a condition, and the two are related; or neither has. -/
def Conditions (result result' : Option Description) : Prop :=
  Option.Rel C.condition result result'

/-- An alternative that has no condition only matters to readers in
lockstep. -/
def Finished (d d' : Option Description) : Prop :=
  C.lockstep ∨ d.isSome = true → C.Conditions d d'

/-- What came of the same part of a query, read from the same state. -/
structure Outcomes (o o' : Outcome) : Prop where
  state : o'.state = o.state
  result : C.Conditions o.result o'.result
  restricted : C.lockstep → o'.restricted = o.restricted

/-- The same, of two conditions that were combined. -/
structure Combinations (o o' : Obtained) : Prop where
  state : o'.state = o.state
  result : C.Conditions o.result o'.result

/-- The same, of the values of a property or the members of a class. -/
structure Lists (m m' : Members) : Prop where
  terminator : m'.terminator = m.terminator
  result : C.Conditions m.result m'.result

/-- How far the same subquery has been read. -/
structure Alternatives (p p' : Progress) : Prop where
  current : C.Conditions p.current p'.current
  finished : List.Forall₂ C.Finished p.finished p'.finished
  restricted : C.lockstep → p'.restricted = p.restricted
  restrict : C.lockstep → p'.restrict = p.restrict

variable {C}

theorem Conditions.isNone {result result' : Option Description}
    (h : C.Conditions result result') : result'.isNone = result.isNone := by
  cases h <;> rfl

theorem Conditions.isSome {result result' : Option Description}
    (h : C.Conditions result result') : result'.isSome = result.isSome := by
  cases h <;> rfl

theorem any_of_forall₂ {f : Option Description → Bool}
    (hf : ∀ d d', C.Conditions d d' → f d' = f d) {ds ds' : List (Option Description)}
    (h : List.Forall₂ C.Conditions ds ds') : ds'.any f = ds.any f := by
  induction h with
  | nil => rfl
  | cons hd _ ih => rw [List.any_cons, List.any_cons, hf _ _ hd, ih]

theorem conditions_none : C.Conditions none none := .none

theorem Conditions.finished {d d' : Option Description} (h : C.Conditions d d') :
    C.Finished d d' := fun _ => h

theorem alternatives_start (restrict : Bool) :
    C.Alternatives (.start restrict) (.start restrict) :=
  ⟨.none, .nil, fun _ => rfl, fun _ => rfl⟩

/-- What has to be shown of two readers for the second one to make of every text
what the first one does, as far as the comparison goes. -/
structure Parallel (C : Comparison) (r r' : Reader) : Prop where
  wiki : r.SameWiki r'
  /-- What leads to a quiet state was quiet all the way. -/
  quiet_of_precedes : ∀ s t, State.Precedes s t → C.quiet t → C.quiet s
  refl : ∀ d, C.condition d d
  combine : ∀ mode current current' incoming incoming' s,
    C.Conditions current current' → C.Conditions incoming incoming' →
    C.quiet (r.combine mode current incoming s).state →
    C.Combinations (r.combine mode current incoming s) (r'.combine mode current' incoming' s)
  wildcard : ∀ valueType, C.condition (r.wildcard valueType) (r'.wildcard valueType)
  describe : ∀ c inner inner', C.condition inner inner' →
    C.condition (Chain.describe c inner) (Chain.describe c inner')
  finishAlternative : ∀ p p' s, C.Alternatives p p' → C.quiet (r.finishAlternative p s).2 →
    (r'.finishAlternative p' s).2 = (r.finishAlternative p s).2 ∧
      C.Alternatives (r.finishAlternative p s).1 (r'.finishAlternative p' s).1
  /-- A subquery that loses conditions is not quiet, or it is lost alike. -/
  lost : ∀ mark p s, mark ≤ s.diagnostics.length → p.finished.any Option.isNone = true →
    C.quiet (r.conclude mark p s).state → C.lockstep

end Comparison

namespace Comparison.Parallel

open Comparison State

variable {C : Comparison} {r r' : Reader}

section

variable (h : C.Parallel r r')

include h

-- =================================================================== atoms

theorem quiet_of_next {s : State} (hquiet : C.quiet (r.next s).state) : C.quiet s :=
  h.quiet_of_precedes s (r.next s).state (.of_eq rfl) hquiet

/-- Atoms end alike: they are not asked to restrict themselves. -/
theorem finishAtom (mark : Nat) (restricted : Bool) {result result' : Option Description}
    (hresult : C.Conditions result result') (c : Chunk) :
    C.Outcomes (r.finishAtom mark false restricted result c)
      (r'.finishAtom mark false restricted result' c) where
  state := by
    simp only [state_finishAtom, beforeLeaving, restrictAtom_false, h.wiki.expectClosing,
      h.wiki.skipLabel, hresult.isNone]
  result := by
    rw [result_finishAtom, result_finishAtom]
    exact hresult
  restricted _ := by rw [restricted_finishAtom, restricted_finishAtom]

theorem abandonAtom (mark : Nat) (s : State) :
    C.Outcomes (r.abandonAtom mark false s) (r'.abandonAtom mark false s) := by
  unfold Reader.abandonAtom
  rw [h.wiki.skipToClosing]
  exact h.finishAtom mark false conditions_none _

/-- One more condition that both readers take from the text. -/
theorem addMember {current current' : Option Description} (incoming : Option Description)
    {s : State} (hcurrent : C.Conditions current current')
    (hquiet : C.quiet (r.combine .disjunctive current incoming s).state) :
    C.Combinations (r.combine .disjunctive current incoming s)
      (r'.combine .disjunctive current' incoming s) := by
  refine h.combine .disjunctive _ _ _ _ s hcurrent ?_ hquiet
  cases incoming with
  | none => exact .none
  | some d => exact .some (h.refl d)

theorem memberAt (kind : ClassKind) {result result' : Option Description} {s : State}
    (hresult : C.Conditions result result') (hquiet : C.quiet (r.memberAt kind result s).state) :
    C.Combinations (r.memberAt kind result s) (r'.memberAt kind result' s) := by
  unfold Reader.memberAt at hquiet ⊢
  rw [h.wiki.next, h.wiki.classMember]
  split
  · exact ⟨rfl, hresult⟩
  · next hwildcard =>
    rw [if_neg hwildcard] at hquiet
    exact h.addMember _ hresult hquiet

theorem articleAt {result result' : Option Description} {c : Chunk}
    (hresult : C.Conditions result result') (hquiet : C.quiet (r.articleAt result c).state) :
    C.Combinations (r.articleAt result c) (r'.articleAt result' c) := by
  unfold Reader.articleAt at hquiet ⊢
  rw [h.wiki.articleMember]
  exact h.addMember _ hresult hquiet

theorem readClass (kind : ClassKind) {result result' : Option Description} (s : State)
    (hresult : C.Conditions result result')
    (hquiet : C.quiet (r.readClass kind result s).terminator.state) :
    C.Lists (r.readClass kind result s) (r'.readClass kind result' s) := by
  by_cases hend : (Token.ofChunk (r.next s).text).isDelimiter = true
  · rw [readClass_end hend, readClass_end (by rwa [h.wiki.next]), h.wiki.next]
    exact ⟨rfl, hresult⟩
  · -- the member is quiet as a part of the list, so both readers go on behind it
    have hend := Bool.eq_false_iff.2 hend
    have hend' : (Token.ofChunk (r'.next s).text).isDelimiter = false := by rwa [h.wiki.next]
    have hmember := h.memberAt kind hresult
      (h.quiet_of_precedes _ _ (precedes_readClass_member r kind result hend) hquiet)
    by_cases hmore : kind = .category ∧
        Token.ofChunk (r.next (r.memberAt kind result s).state).text = .bars
    · have hlt : (r.next (r.memberAt kind result s).state).state.rest.length < s.rest.length :=
        Nat.lt_of_le_of_lt (next_length_le r _)
          (by simpa only [rest_memberAt] using next_length_lt_of_member hend)
      rw [readClass_more hend hmore] at hquiet ⊢
      rw [readClass_more hend' (by rwa [h.wiki.next, hmember.state]), h.wiki.next, hmember.state]
      exact readClass kind _ hmember.result hquiet
    · rw [readClass_last hend hmore, readClass_last hend' (by rwa [h.wiki.next, hmember.state]),
        h.wiki.next, hmember.state]
      exact ⟨rfl, hmember.result⟩
termination_by s.rest.length

theorem articleAtom (mark : Nat) {result result' : Option Description} (c : Chunk)
    (hresult : C.Conditions result result')
    (hquiet : C.quiet (r.articleAtom mark false result c).state) :
    C.Outcomes (r.articleAtom mark false result c) (r'.articleAtom mark false result' c) := by
  by_cases hquery : Token.ofChunk c.text = .openQuery
  · rw [articleAtom_misplaced hquery, articleAtom_misplaced hquery]
    exact h.abandonAtom mark _
  · have hmember := h.articleAt hresult
      (h.quiet_of_precedes _ _ (precedes_articleAtom_article r mark false result hquery) hquiet)
    by_cases hmore : Token.ofChunk (r.nextAt .atomContent (r.articleAt result c).state).text = .bars
    · have hlt : (r.nextAt .atomContent (r.nextAt .atomContent
          (r.articleAt result c).state).state).state.rest.length < c.state.rest.length := by
        have hle := nextAt_length_le r .atomContent
          (r.nextAt .atomContent (r.articleAt result c).state).state
        have hlt := nextAt_length_lt (Token.ne_nil_of_ofChunk hmore (by decide))
        rw [rest_articleAt] at hlt
        exact Nat.lt_of_le_of_lt hle hlt
      rw [articleAtom_more hquery hmore] at hquiet ⊢
      rw [articleAtom_more hquery (by rwa [h.wiki.nextAt, hmember.state]), h.wiki.nextAt,
        hmember.state]
      exact articleAtom mark _ hmember.result hquiet
    · rw [articleAtom_close hquery hmore,
        articleAtom_close hquery (by rwa [h.wiki.nextAt, hmember.state]), h.wiki.nextAt,
        hmember.state]
      exact h.finishAtom mark true hmember.result _
termination_by c.state.rest.length

theorem closeProperty (mark : Nat) (c : Chain) {values values' : Members}
    (hvalues : C.Lists values values') :
    C.Outcomes (r.closeProperty mark false c values) (r'.closeProperty mark false c values') := by
  obtain ⟨result, terminator⟩ := values
  obtain ⟨result', terminator'⟩ := values'
  obtain rfl : terminator' = terminator := hvalues.terminator
  have hresult : C.Conditions result result' := hvalues.result
  unfold Reader.closeProperty
  cases hresult with
  | none => exact h.finishAtom mark false (.some (h.describe c _ _ (h.wildcard c.valueType))) _
  | some hinner => exact h.finishAtom mark false (.some (h.describe c _ _ hinner)) _

-- ================================================================== values

theorem addSubquery (c : Chain) {result result' : Option Description} {o o' : Outcome}
    (hresult : C.Conditions result result') (ho : C.Outcomes o o')
    (hquiet : C.quiet (r.addSubquery c result o).state) :
    C.Combinations (r.addSubquery c result o) (r'.addSubquery c result' o') := by
  unfold Reader.addSubquery at hquiet ⊢
  rw [ho.state]
  split
  · next hpage =>
    rw [if_pos hpage] at hquiet
    exact h.combine .disjunctive _ _ _ _ _ hresult ho.result hquiet
  · next hpage =>
    rw [if_neg hpage] at hquiet
    exact h.addMember _ hresult hquiet

theorem addLiteral (c : Chain) {result result' : Option Description} (text : ValueText) {s : State}
    (hresult : C.Conditions result result')
    (hquiet : C.quiet (r.addLiteral c result text s).terminator.state) :
    C.Lists (r.addLiteral c result text s) (r'.addLiteral c result' text s) := by
  unfold Reader.addLiteral at hquiet ⊢
  rw [h.wiki.value]
  have hcombined := h.addMember _ hresult hquiet
  exact ⟨congrArg (Chunk.mk text.terminator) hcombined.state, hcombined.result⟩

-- ============================================================ alternatives

/-- An alternative is extended by one more condition. -/
theorem addCondition {p p' : Progress} {o o' : Outcome} (hp : C.Alternatives p p')
    (ho : C.Outcomes o o') (hquiet : C.quiet (r.addCondition p o).2) :
    (r'.addCondition p' o').2 = (r.addCondition p o).2 ∧
      C.Alternatives (r.addCondition p o).1 (r'.addCondition p' o').1 := by
  have hcombined := h.combine .conjunctive _ _ _ _ o.state hp.current ho.result hquiet
  unfold Reader.addCondition
  rw [ho.state]
  refine ⟨hcombined.state, hcombined.result, hp.finished, fun hlockstep => ?_, hp.restrict⟩
  show (p'.restricted || o'.restricted) = (p.restricted || o.restricted)
  rw [hp.restricted hlockstep, ho.restricted hlockstep]

/-- The same, if what follows the condition is known to be quiet. -/
theorem addCondition_behind (mark : Nat) (restrict : Bool) {p p' : Progress} {o o' : Outcome}
    (hp : C.Alternatives p p') (ho : C.quiet o.state → C.Outcomes o o')
    (hquiet : C.quiet
      (r.readAlternatives mark restrict (r.addCondition p o).1 (r.addCondition p o).2).val.state) :
    (r'.addCondition p' o').2 = (r.addCondition p o).2 ∧
      C.Alternatives (r.addCondition p o).1 (r'.addCondition p' o').1 := by
  have hadded := h.quiet_of_precedes _ _ (precedes_readAlternatives r mark restrict _ _) hquiet
  exact h.addCondition hp (ho (h.quiet_of_precedes _ _ (precedes_addCondition r p o) hadded)) hadded

theorem combineAll {ds ds' : List (Option Description)} (hds : List.Forall₂ C.Conditions ds ds')
    {result result' : Option Description} (hresult : C.Conditions result result') (s : State)
    (hquiet : C.quiet (r.combineAll result ds s).state) :
    C.Combinations (r.combineAll result ds s) (r'.combineAll result' ds' s) := by
  induction hds generalizing result result' s with
  | nil => exact ⟨rfl, hresult⟩
  | cons hd _ ih =>
    simp only [Reader.combineAll] at hquiet ⊢
    have hfirst := h.combine .disjunctive _ _ _ _ s hresult hd
      (h.quiet_of_precedes _ _ (precedes_combineAll r _ _ _) hquiet)
    rw [hfirst.state]
    exact ih hfirst.result _ hquiet

/-- In a quiet reading, the finished alternatives correspond to one another,
with or without conditions. -/
theorem forall₂_finished {mark : Nat} {p p' : Progress} (hp : C.Alternatives p p') {s : State}
    (hmark : mark ≤ s.diagnostics.length) (hquiet : C.quiet (r.conclude mark p s).state) :
    List.Forall₂ C.Conditions p.finished p'.finished := by
  -- without lockstep, nothing is known of an alternative that has no condition
  by_cases hlost : p.finished.any Option.isNone = true
  · have hlockstep := h.lost mark p s hmark hlost hquiet
    exact hp.finished.imp fun d d' hd => hd (.inl hlockstep)
  · have hsome : ∀ d ∈ p.finished, d.isSome = true
      | none, hd => absurd (List.any_eq_true.2 ⟨none, hd, rfl⟩) hlost
      | some _, _ => rfl
    exact ((List.forall₂_and_left _ _).2 ⟨hsome, hp.finished⟩).imp fun d d' hd => hd.2 (.inr hd.1)

theorem conclude {mark : Nat} {p p' : Progress} (hp : C.Alternatives p p') {s : State}
    (hmark : mark ≤ s.diagnostics.length) (hquiet : C.quiet (r.conclude mark p s).state) :
    C.Outcomes (r.conclude mark p s) (r'.conclude mark p' s) := by
  have hfinished := h.forall₂_finished hp hmark hquiet
  have hempty : p'.finished.isEmpty = p.finished.isEmpty := by
    rw [Bool.eq_iff_iff, List.isEmpty_iff_length_eq_zero, List.isEmpty_iff_length_eq_zero,
      hfinished.length_eq]
  have hnone := any_of_forall₂ (fun _ _ hd => hd.isNone) hfinished
  have hsome := any_of_forall₂ (fun _ _ hd => hd.isSome) hfinished
  unfold Reader.conclude at hquiet ⊢
  rw [hempty, hnone, hsome]
  split
  · exact ⟨rfl, .none, fun _ => rfl⟩
  · next hkept =>
    rw [if_neg hkept] at hquiet
    have hcombined := h.combineAll hfinished conditions_none s hquiet
    exact ⟨hcombined.state, hcombined.result, hp.restrict⟩

theorem leaveSubquery {mark : Nat} {restrict : Bool} {chunk : Text} {p p' : Progress}
    (hp : C.Alternatives p p') {s : State} (hmark : mark ≤ s.diagnostics.length)
    (hquiet : C.quiet (r.leaveSubquery mark restrict chunk p s).state) :
    C.Outcomes (r.leaveSubquery mark restrict chunk p s)
      (r'.leaveSubquery mark restrict chunk p' s) := by
  unfold Reader.leaveSubquery at hquiet ⊢
  split
  · next hopen =>
    rw [if_pos hopen] at hquiet
    exact h.conclude hp hmark hquiet
  · exact ⟨rfl, .none, fun _ => rfl⟩

end

-- ============================================================ all readings

/-- What the other reader makes of the same text, wherever a quiet reading of
the first one has got to. -/
def invariant (C : Comparison) (r' : Reader) : Invariant where
  subquery restrict s o := C.quiet o.state → C.Outcomes o (r'.readSubquery restrict s).val
  alternatives mark restrict p s o := mark ≤ s.diagnostics.length → C.quiet o.state →
    ∀ p', C.Alternatives p p' → C.Outcomes o (r'.readAlternatives mark restrict p' s).val
  atom restrict s o := restrict = false → C.quiet o.state →
    C.Outcomes o (r'.readAtom restrict s).val
  property mark restrict name s o := restrict = false → C.quiet o.state →
    C.Outcomes o (r'.readProperty mark restrict name s).val
  values c result s m := C.quiet m.terminator.state →
    ∀ result', C.Conditions result result' → C.Lists m (r'.readValues c result' s).val
  oneValue c result s m := C.quiet m.terminator.state →
    ∀ result', C.Conditions result result' → C.Lists m (r'.readOneValue c result' s).val

/-- By the time a part of a quiet reading begins, both readers are in the same
state with related conditions, and hence they are where it ends. -/
theorem preserved (h : C.Parallel r r') : (invariant C r').Preserved r where
  subquery_nil restrict s hnil hquiet := by
    rw [readSubquery_nil (by rwa [h.wiki.next]), h.wiki.next]
    exact h.conclude (alternatives_start restrict) (precedes_leaveAtEnd (r.next s).state).length_le
      hquiet
  subquery_alternatives restrict s hne ho hquiet := by
    rw [readSubquery_ne_nil (by rwa [h.wiki.next])]
    exact ho (Nat.le_refl _) hquiet _ (alternatives_start restrict)
  finish mark restrict p s hnil hmark hquiet p' hp := by
    have hleft := precedes_leaveAtEnd (r.finishAlternative p (r.next s).state).2
    obtain ⟨hstate, hfinished⟩ := h.finishAlternative p p' (r.next s).state hp
      (h.quiet_of_precedes _ _ (hleft.trans (precedes_conclude r _ _ _)) hquiet)
    have htoken : Token.ofChunk (r'.next s).text = .finish := by
      rw [h.wiki.next]
      exact Token.ofChunk_eq_finish_iff.2 hnil
    rw [readAlternatives_finish htoken, h.wiki.next, hstate]
    exact h.conclude hfinished (Nat.le_trans hmark
      ((precedes_finishAlternative r p (r.next s).state).trans hleft).length_le) hquiet
  openAtom mark restrict p s p₁ s₁ htoken hadd hatom ho hmark hquiet p' hp := by
    have hadded := (precedes_readAtom r false (r.next s).state).trans
      (precedes_addCondition r p (r.readAtom false (r.next s).state).val)
    obtain ⟨hstate, hp₁⟩ := h.addCondition_behind mark restrict hp (hatom rfl)
      (by rw [hadd]; exact hquiet)
    rw [readAlternatives_openAtom (r := r') (by rwa [h.wiki.next]), h.wiki.next, hstate]
    rw [hadd] at hadded hp₁ ⊢
    exact ho (Nat.le_trans hmark hadded.length_le) hquiet _ hp₁
  openQuery mark restrict p s p₁ s₁ htoken hadd hsub ho hmark hquiet p' hp := by
    have hadded := (precedes_readSubquery r false ((r.next s).state.enter .subquery)).trans
      (precedes_addCondition r p (r.readSubquery false ((r.next s).state.enter .subquery)).val)
    obtain ⟨hstate, hp₁⟩ := h.addCondition_behind mark restrict hp hsub
      (by rw [hadd]; exact hquiet)
    rw [readAlternatives_openQuery (r := r') (by rwa [h.wiki.next]), h.wiki.next, hstate]
    rw [hadd] at hadded hp₁ ⊢
    exact ho (Nat.le_trans hmark hadded.length_le) hquiet _ hp₁
  or mark restrict p s p₁ s₁ htoken hfinish ho hmark hquiet p' hp := by
    have hfinished := precedes_finishAlternative r p (r.next s).state
    have hquiet₁ : C.quiet (r.finishAlternative p (r.next s).state).2 := by
      rw [hfinish]
      exact h.quiet_of_precedes _ _ (precedes_readAlternatives r mark restrict p₁ s₁) hquiet
    obtain ⟨hstate, hp₁⟩ := h.finishAlternative p p' (r.next s).state hp hquiet₁
    rw [readAlternatives_or (r := r') (by rwa [h.wiki.next]), h.wiki.next, hstate]
    rw [hfinish] at hfinished hp₁ ⊢
    exact ho (Nat.le_trans hmark hfinished.length_le) hquiet _ hp₁
  closeQuery mark restrict p s htoken hmark hquiet p' hp := by
    obtain ⟨hstate, hfinished⟩ := h.finishAlternative p p' (r.next s).state hp
      (h.quiet_of_precedes _ _ (precedes_leaveSubquery r mark restrict _ _ _) hquiet)
    rw [readAlternatives_closeQuery (r := r') (by rwa [h.wiki.next]), h.wiki.next, hstate]
    exact h.leaveSubquery hfinished
      (Nat.le_trans hmark (precedes_finishAlternative r p (r.next s).state).length_le) hquiet
  wildcard mark restrict p s htoken ho hmark hquiet p' hp := by
    rw [readAlternatives_wildcard (r := r') (by rwa [h.wiki.next]), h.wiki.next]
    exact ho hmark hquiet p' hp
  unexpected mark restrict p s s₁ hunexpected heq ho hmark hquiet p' hp := by
    subst heq
    rw [readAlternatives_unexpected (r := r') (by rwa [h.wiki.next]), h.wiki.next]
    exact ho (Nat.le_trans hmark ((Precedes.refl (r.next s).state).report _).length_le) hquiet p' hp
  classAtom kind restrict s hclass hrestrict hquiet := by
    subst hrestrict
    have hclass' : classKind? r'.config (Text.trim (r'.firstChunk s)) = some kind := by
      rwa [h.wiki.classKind?, h.wiki.firstChunk]
    rw [readAtom_class hclass', h.wiki.opened]
    have hlists := h.readClass kind (r.opened s) conditions_none
      (h.quiet_of_precedes _ _ (precedes_finishAtom r _ false false _ _) hquiet)
    unfold Reader.classAtom
    dsimp only
    rw [hlists.terminator]
    exact h.finishAtom _ false hlists.result _
  emptyAtom restrict s hclass hempty hrestrict _ := by
    subst hrestrict
    rw [readAtom_empty (by rwa [h.wiki.classKind?, h.wiki.firstChunk])
      (by rwa [h.wiki.firstChunk]), h.wiki.firstChunk, h.wiki.opened]
    exact h.finishAtom _ false conditions_none _
  escapedAtom restrict s hs hcolon hrestrict hquiet := by
    subst hrestrict
    have hs' := h.wiki.startsProperty hs
    rw [readAtom_escaped hs'.noClass hs'.notEmpty hs'.separator (by rwa [h.wiki.firstChunk]),
      h.wiki.firstChunk, h.wiki.opened, h.wiki.nextAt]
    exact h.articleAtom _ _ conditions_none hquiet
  articleAtom restrict s hclass hempty hseparator hrestrict hquiet := by
    subst hrestrict
    rw [readAtom_article (by rwa [h.wiki.classKind?, h.wiki.firstChunk])
      (by rwa [h.wiki.firstChunk]) (by rwa [h.wiki.next, h.wiki.opened]),
      h.wiki.firstChunk, h.wiki.opened]
    exact h.articleAtom _ _ conditions_none hquiet
  propertyAtom restrict s hs hcolon ho hrestrict hquiet := by
    have hs' := h.wiki.startsProperty hs
    rw [readAtom_property hs'.noClass hs'.notEmpty hs'.separator (by rwa [h.wiki.firstChunk]),
      h.wiki.firstChunk, h.wiki.opened, h.wiki.next]
    exact ho hrestrict hquiet
  property_error mark restrict name s problem hchain hrestrict _ := by
    subst hrestrict
    rw [readProperty_error (by rw [h.wiki.chain]; exact hchain)]
    exact h.abandonAtom mark _
  property_ok mark restrict name s c hchain hvalues hrestrict hquiet := by
    subst hrestrict
    rw [readProperty_ok (by rw [h.wiki.chain]; exact hchain)]
    exact h.closeProperty mark c (hvalues
      (h.quiet_of_precedes _ _ (precedes_closeProperty r mark false c _) hquiet) _ conditions_none)
  values_more c result s result₁ s₁ hbars hresult hstate hfirst hothers hquiet result' hrelated := by
    subst hresult hstate
    have hone := hfirst (h.quiet_of_precedes _ _ (precedes_readValues r c _ _) hquiet) result' hrelated
    rw [readValues_more (r := r') (by rwa [hone.terminator]), hone.terminator]
    exact hothers hquiet _ hone.result
  values_last c result s hlast hone hquiet result' hrelated := by
    have hone := hone hquiet result' hrelated
    rwa [readValues_last (r := r') (by rwa [hone.terminator])]
  value_wildcard c result s htoken hquiet result' hrelated := by
    rw [readOneValue_wildcard (by rwa [h.wiki.next]), h.wiki.next]
    have hcombined := h.combine .disjunctive _ _ _ _ (r.next s).state hrelated
      (.some (h.wildcard c.valueType)) (h.quiet_of_next hquiet)
    exact ⟨congrArg r.next hcombined.state, hcombined.result⟩
  value_openQuery c result s combined htoken heq hsub hquiet result' hrelated := by
    subst heq
    have hquiet₁ : C.quiet (r.addSubquery c result
        (r.readSubquery true ((r.next s).state.enter .subquery)).val).state :=
      h.quiet_of_next hquiet
    rw [readOneValue_openQuery (by rwa [h.wiki.next]), h.wiki.next]
    have hcombined := h.addSubquery c hrelated
      (hsub (h.quiet_of_precedes _ _ (precedes_addSubquery r c result _) hquiet₁)) hquiet₁
    exact ⟨congrArg r.next hcombined.state, hcombined.result⟩
  value_delimiter c result s hquery hdelimiter _ result' hrelated := by
    rw [readOneValue_delimiter (by rwa [h.wiki.next]) (by rwa [h.wiki.next]), h.wiki.next]
    exact ⟨rfl, hrelated⟩
  value_literal c result s htoken hquiet result' hrelated := by
    rw [readOneValue_literal (by rwa [h.wiki.next]), h.wiki.next, h.wiki.labels]
    exact h.addLiteral c _ hrelated hquiet

end Comparison.Parallel

end Reader

end InlineQuery
