/-
Blocks are closed in the order in which they were opened.

A reader opens the block of an atom at `[[` and that of a subquery at `<q>`,
and closes the innermost block whichever it is. There are many ways out of an
atom: it may be empty or abandoned, its value may be missing, the query may
end inside of it. On each of them exactly the block that was opened is closed.

# The invariant

`Follows s blocks t` says that on the way from `s` to `t` the open blocks have
become `blocks`, and that nothing was reported of delimiters but subqueries in
which the query ended. Every operation of a reader takes such a way further:
the end of an atom and that of a subquery take the innermost block off, all
others leave the blocks alone.

A whole query differs from a subquery in one point only. There is no block
that a `</q>` could close, so a reader that finds one gives up on the spot
(`Ends`).
-/
import InlineQuery.Proofs.Reading.Combination
import InlineQuery.Proofs.Reading.Cuts
import InlineQuery.Proofs.Reading.Diagnostics

namespace InlineQuery

namespace Token

/-- A chunk that closes a subquery is `</q>`, in either case. -/
theorem eqIgnoreAsciiCase_of_closeQuery {chunk : Text} (h : ofChunk chunk = .closeQuery) :
    Text.eqIgnoreAsciiCase chunk Block.subquery.closing = true := by
  have hspells : chunk.map Char.toLower = ['<', '/', 'q', '>'] := by
    have hspells := spells_ofChunk chunk
    rwa [h] at hspells
  rw [Text.eqIgnoreAsciiCase, hspells]
  rfl

end Token

namespace Diagnostic

/-- The diagnostic is not about delimiters, or it is about a subquery in which
the query ended. -/
def Orderly : Diagnostic → Prop
  | .mismatchedDelimiter expected found => expected = some Block.subquery.closing ∧ found = none
  | _ => True

end Diagnostic

namespace State

/-- The second state comes after the first, with these blocks open and
nothing but orderly diagnostics in between. -/
structure Follows (s : State) (blocks : List Block) (t : State) : Prop where
  blocks : t.blocks = blocks
  added : ∃ more, t.diagnostics = s.diagnostics ++ more ∧ ∀ d ∈ more, d.Orderly

namespace Follows

variable {s t u : State} {block : Block} {blocks others : List Block}

theorem refl (h : s.blocks = blocks) : s.Follows blocks s :=
  ⟨h, [], (List.append_nil _).symm, fun _ hd => nomatch hd⟩

theorem trans (h : s.Follows blocks t) (h' : t.Follows others u) : s.Follows others u := by
  obtain ⟨more, hmore, horderly⟩ := h.added
  obtain ⟨more', hmore', horderly'⟩ := h'.added
  refine ⟨h'.blocks, more ++ more', ?_, ?_⟩
  · rw [hmore', hmore, List.append_assoc]
  · exact List.forall_mem_append.2 ⟨horderly, horderly'⟩

/-- Reading on changes neither blocks nor diagnostics. -/
theorem next (h : s.Follows blocks t) (r : Reader) : s.Follows blocks (r.next t).state :=
  ⟨h.blocks, h.added⟩

theorem nextAt (h : s.Follows blocks t) (r : Reader) (stop : StopSet) :
    s.Follows blocks (r.nextAt stop t).state :=
  ⟨h.blocks, h.added⟩

theorem report (h : s.Follows blocks t) (problem : Diagnostic) (hproblem : problem.Orderly) :
    s.Follows blocks (t.report problem) := by
  obtain ⟨more, hmore, horderly⟩ := h.added
  refine ⟨h.blocks, more ++ [problem], ?_, ?_⟩
  · show t.diagnostics ++ [problem] = _
    rw [hmore, List.append_assoc]
  · exact List.forall_mem_append.2 ⟨horderly, List.forall_mem_singleton.2 hproblem⟩

theorem enter (h : s.Follows blocks t) (block : Block) :
    s.Follows (block :: blocks) (t.enter block) :=
  ⟨congrArg (block :: ·) h.blocks, h.added⟩

theorem leave (h : s.Follows (block :: blocks) t) : s.Follows blocks t.leave :=
  ⟨congrArg List.tail h.blocks, h.added⟩

theorem head?_eq (h : s.Follows (block :: blocks) t) : t.blocks.head? = some block := by
  rw [h.blocks]
  rfl

end Follows

end State

namespace Reader

open State

variable {r : Reader} {s t : State} {blocks : List Block}

-- ============================================================= single steps

/-- Combinations only ever report features. -/
theorem orderly_combine (permitted : FeatureSet) (mode : Mode)
    (current incoming : Option Description) :
    ∀ d ∈ (InlineQuery.combine permitted mode current incoming).problem, d.Orderly := by
  have h := combine_combination permitted mode current incoming
  generalize InlineQuery.combine permitted mode current incoming = combined at h
  intro d hd
  cases h with
  | refused | separate =>
    cases hd
    trivial
  | _ => cases hd

theorem orderly_classMember (config : Config) (kind : ClassKind) (t : Text) :
    ∀ d ∈ (classMember config kind t).2, d.Orderly := by
  intro d hd
  unfold classMember at hd
  split at hd
  · cases hd
    trivial
  · split at hd <;> cases hd

theorem orderly_articleMember (config : Config) (t : Text) :
    ∀ d ∈ (articleMember config t).2, d.Orderly := by
  intro d hd
  unfold articleMember at hd
  split at hd
  · cases hd
  · split at hd
    · cases hd
    · cases hd
      trivial

theorem orderly_value (config : Config) (property : Property) (valueType : ValueType)
    (t : Text) : ∀ d ∈ (value config property valueType t).2, d.Orderly := by
  intro d hd
  unfold value at hd
  dsimp only at hd
  split at hd
  · cases hd
  · cases hd
    trivial

theorem orderly_chainFrom {config : Config} {outer : List Property} {name : Text}
    {names : List Text} {problem : Diagnostic}
    (h : chainFrom config outer name names = .error problem) : problem.Orderly := by
  induction names generalizing outer name with
  | nil =>
    unfold chainFrom at h
    split at h
    · cases h
      trivial
    · cases h
  | cons following names ih =>
    unfold chainFrom at h
    split at h
    · cases h
      trivial
    · split at h
      · exact ih h
      · cases h
        trivial

theorem orderly_chain {config : Config} {t : Text} {problem : Diagnostic}
    (h : chain config t = .error problem) : problem.Orderly := by
  unfold chain at h
  split at h
  · exact orderly_chainFrom h
  · exact orderly_chainFrom h

theorem follows_reportAny {problem : Option Diagnostic} (h : s.Follows blocks t)
    (hproblem : ∀ d ∈ problem, d.Orderly) : s.Follows blocks (reportAny problem t) := by
  cases problem with
  | none => exact h
  | some problem => exact h.report problem (hproblem problem rfl)

theorem follows_combine (h : s.Follows blocks t) (mode : Mode)
    (current incoming : Option Description) :
    s.Follows blocks (r.combine mode current incoming t).state := by
  have hproblem := orderly_combine r.config.features mode current incoming
  rw [state_combine]
  split
  · next problem heq => exact h.report problem (hproblem problem heq)
  · exact h

-- ========================================================== closing an atom

theorem follows_skipToClosing (h : s.Follows blocks t) :
    s.Follows blocks (r.skipToClosing t).2.state := by
  unfold skipToClosing
  dsimp only
  split
  · exact h.nextAt r _
  · exact (h.nextAt r _).nextAt r _

theorem follows_restrictAtom (h : s.Follows blocks t) (restrict restricted : Bool)
    (result : Option Description) :
    s.Follows blocks (r.restrictAtom restrict restricted result t).state := by
  unfold restrictAtom
  split
  · split
    · exact follows_combine h _ _ _
    · exact h
  · exact h

theorem follows_skipLabel {c : Chunk} (h : s.Follows blocks c.state) :
    s.Follows blocks (r.skipLabel c).state := by
  unfold skipLabel
  split
  · exact (follows_skipToClosing h).report _ trivial
  · exact h

theorem follows_expectClosing {c : Chunk} (h : s.Follows blocks c.state) :
    s.Follows blocks (r.expectClosing c) := by
  unfold expectClosing
  split
  · exact h
  · split
    · exact h.report .missingClosingBrackets trivial
    · have hskip : s.Follows blocks
          (r.skipToClosing (c.state.report (.misplacedSymbol c.text))).2.state :=
        follows_skipToClosing (h.report _ trivial)
      dsimp only
      split
      · exact hskip.report .missingClosingBrackets trivial
      · exact hskip

theorem follows_leaveAtom (h : s.Follows (.atom :: blocks) t) :
    s.Follows blocks (leaveAtom t) := by
  rw [leaveAtom, if_pos h.head?_eq]
  exact h.leave

theorem follows_beforeLeaving {c : Chunk} (h : s.Follows blocks c.state) (mark : Nat)
    (restrict restricted : Bool) (result : Option Description) :
    s.Follows blocks (r.beforeLeaving mark restrict restricted result c) := by
  unfold beforeLeaving
  apply follows_expectClosing
  apply follows_skipLabel (c := ⟨c.text, _⟩)
  apply follows_restrictAtom
  split
  · exact h.report .badAtom trivial
  · exact h

theorem follows_finishAtom {c : Chunk} (h : s.Follows (.atom :: blocks) c.state) (mark : Nat)
    (restrict restricted : Bool) (result : Option Description) :
    s.Follows blocks (r.finishAtom mark restrict restricted result c).state := by
  rw [state_finishAtom]
  exact follows_leaveAtom (follows_beforeLeaving h mark restrict restricted result)

theorem follows_abandonAtom (h : s.Follows (.atom :: blocks) t) (mark : Nat) (restrict : Bool) :
    s.Follows blocks (r.abandonAtom mark restrict t).state :=
  follows_finishAtom (follows_skipToClosing h) mark restrict false none

-- ======================================================= atoms by their kind

theorem follows_readClass (kind : ClassKind) (result : Option Description)
    (h : s.Follows blocks t) :
    s.Follows blocks (r.readClass kind result t).terminator.state := by
  have hmember {t : State} (h : s.Follows blocks t) (result : Option Description) (name : Text) :
      s.Follows blocks (r.combine .disjunctive result (classMember r.config kind name).1
        (reportAny (classMember r.config kind name).2 t)).state :=
    follows_combine (follows_reportAny h (orderly_classMember r.config kind name)) _ _ _
  fun_induction readClass r kind result t with
  | case1 result t name token hend => exact h.next r
  | case2 result t name token hend combined following hmore ih =>
    apply ih
    simp only [following, combined]
    split
    · exact (h.next r).next r
    · exact (hmember (h.next r) result name.text).next r
  | case3 result t name token hend combined following hmore =>
    simp only [following, combined]
    split
    · exact (h.next r).next r
    · exact (hmember (h.next r) result name.text).next r

theorem follows_articleAtom (mark : Nat) (restrict : Bool) (result : Option Description)
    {c : Chunk} (h : s.Follows (.atom :: blocks) c.state) :
    s.Follows blocks (r.articleAtom mark restrict result c).state := by
  have hmember {t : State} (h : s.Follows (.atom :: blocks) t) (result : Option Description)
      (name : Text) :
      s.Follows (.atom :: blocks) (r.combine .disjunctive result (articleMember r.config name).1
        (reportAny (articleMember r.config name).2 t)).state :=
    follows_combine (follows_reportAny h (orderly_articleMember r.config name)) _ _ _
  fun_induction articleAtom r mark restrict result c with
  | case1 result c hquery =>
    exact follows_abandonAtom (h.report .misplacedSubquery trivial) mark restrict
  | case2 result c hquery condition problem hc combined following hmore ih =>
    have hcombined := hmember h result c.text
    rw [hc] at hcombined
    exact ih ((hcombined.nextAt r _).nextAt r _)
  | case3 result c hquery condition problem hc combined following hmore =>
    have hcombined := hmember h result c.text
    rw [hc] at hcombined
    exact follows_finishAtom (hcombined.nextAt r _) mark restrict true _

-- ============================================================== subqueries

theorem follows_restrictAll (defaults : Description) (ds : List (Option Description))
    (h : s.Follows blocks t) : s.Follows blocks (r.restrictAll defaults ds t).2 := by
  induction ds generalizing t with
  | nil => exact h
  | cons d ds ih => exact ih (follows_combine h _ _ _)

theorem follows_finishAlternative (p : Progress) (h : s.Follows blocks t) :
    s.Follows blocks (r.finishAlternative p t).2 := by
  unfold finishAlternative
  split
  · exact h
  · split
    · exact follows_restrictAll _ _ h
    · split
      · exact follows_combine h _ _ _
      · exact h

theorem follows_combineAll (result : Option Description) (ds : List (Option Description))
    (h : s.Follows blocks t) : s.Follows blocks (r.combineAll result ds t).state := by
  induction ds generalizing result t with
  | nil => exact h
  | cons d ds ih => exact ih _ (follows_combine h _ _ _)

theorem follows_conclude (mark : Nat) (p : Progress) (h : s.Follows blocks t) :
    s.Follows blocks (r.conclude mark p t).state := by
  unfold conclude
  dsimp only
  split
  · split
    · exact h.report .emptySubquery trivial
    · exact h
  · exact follows_combineAll _ _ h

theorem follows_leaveAtEnd (h : s.Follows (.subquery :: blocks) t) :
    s.Follows blocks (leaveAtEnd t) := by
  rw [leaveAtEnd, if_pos h.head?_eq]
  exact h.leave.report _ ⟨rfl, rfl⟩

theorem leaveAtEnd_of_nil (h : t.blocks = []) : leaveAtEnd t = t := by
  rw [leaveAtEnd, if_neg]
  rw [h]
  exact nofun

theorem follows_leaveSubquery (mark : Nat) (restrict : Bool) (chunk : Text) (p : Progress)
    (h : s.Follows (.subquery :: blocks) t) :
    s.Follows blocks (r.leaveSubquery mark restrict chunk p t).state := by
  rw [leaveSubquery, if_pos h.head?_eq]
  exact follows_conclude mark p h.leave

theorem follows_addCondition (p : Progress) {o : Outcome} (h : s.Follows blocks o.state) :
    s.Follows blocks (r.addCondition p o).2 :=
  follows_combine h _ _ _

theorem follows_closeProperty (mark : Nat) (restrict : Bool) (c : Chain) {values : Members}
    (h : s.Follows (.atom :: blocks) values.terminator.state) :
    s.Follows blocks (r.closeProperty mark restrict c values).state := by
  unfold closeProperty
  split
  · exact follows_finishAtom h mark restrict false _
  · have hreported := h.report (.missingValue c.last.write) trivial
    exact follows_finishAtom (c := ⟨values.terminator.text, _⟩) hreported mark restrict false _

theorem follows_addSubquery (c : Chain) (result : Option Description) {o : Outcome}
    (h : s.Follows blocks o.state) : s.Follows blocks (r.addSubquery c result o).state := by
  unfold addSubquery
  split
  · exact follows_combine h _ _ _
  · exact follows_combine (h.report (.valueSubquery c.last.write) trivial) _ _ _

theorem follows_addLiteral (c : Chain) (result : Option Description) (text : ValueText)
    (h : s.Follows blocks t) :
    s.Follows blocks (r.addLiteral c result text t).terminator.state :=
  follows_combine (follows_reportAny (t := { t with rest := text.rest }) ⟨h.blocks, h.added⟩
    (orderly_value r.config c.last c.valueType text.value)) _ _ _

-- ============================================================= all readings

/-- Subqueries close the block that was opened for them, and atoms one that
they open themselves; values leave all blocks as they are. -/
def orderlyInvariant : Invariant where
  subquery _ s o := ∀ blocks, s.blocks = .subquery :: blocks → s.Follows blocks o.state
  alternatives _ _ _ s o := ∀ blocks, s.blocks = .subquery :: blocks → s.Follows blocks o.state
  atom _ s o := s.Follows s.blocks o.state
  property _ _ _ s o := ∀ blocks, s.blocks = .atom :: blocks → s.Follows blocks o.state
  values _ _ s m := s.Follows s.blocks m.terminator.state
  oneValue _ _ s m := s.Follows s.blocks m.terminator.state

/-- Nothing but the block of the atom has changed behind its first chunk. -/
theorem follows_opened (r : Reader) (s : State) :
    s.Follows (.atom :: s.blocks) (r.opened s) :=
  have h : s.Follows (.atom :: s.blocks) (s.enter .atom) := (Follows.refl rfl).enter .atom
  ⟨h.blocks, h.added⟩

theorem orderlyInvariant_preserved (r : Reader) : orderlyInvariant.Preserved r where
  subquery_nil restrict s _ blocks hblocks := by
    have hnext := (Follows.refl hblocks).next r
    exact follows_conclude _ _ (follows_leaveAtEnd hnext)
  subquery_alternatives restrict s _ h := h
  finish mark restrict p s _ blocks hblocks := by
    have hnext := (Follows.refl hblocks).next r
    exact follows_conclude _ _ (follows_leaveAtEnd (follows_finishAlternative p hnext))
  openAtom mark restrict p s p' s' _ heq hatom ho blocks hblocks := by
    have hadd := follows_addCondition (r := r) p (((Follows.refl rfl).next r).trans hatom)
    rw [heq] at hadd
    exact hadd.trans (ho blocks (hadd.blocks.trans hblocks))
  openQuery mark restrict p s p' s' _ heq hsub ho blocks hblocks := by
    have hentered := ((Follows.refl (s := s) rfl).next r).enter .subquery
    have hadd := follows_addCondition (r := r) p (hentered.trans (hsub s.blocks rfl))
    rw [heq] at hadd
    exact hadd.trans (ho blocks (hadd.blocks.trans hblocks))
  or mark restrict p s p' s' _ heq ho blocks hblocks := by
    have hnext := (Follows.refl hblocks).next r
    have hfinish := follows_finishAlternative (r := r) p hnext
    rw [heq] at hfinish
    exact hfinish.trans (ho blocks hfinish.blocks)
  closeQuery mark restrict p s _ blocks hblocks := by
    have hnext := (Follows.refl hblocks).next r
    exact follows_leaveSubquery mark restrict _ _ (follows_finishAlternative p hnext)
  wildcard mark restrict p s _ ho blocks hblocks :=
    ((Follows.refl hblocks).next r).trans (ho blocks hblocks)
  unexpected mark restrict p s s' _ heq ho blocks hblocks := by
    subst heq
    have hnext := (Follows.refl hblocks).next r
    have hreported := hnext.report (.unexpectedPart (r.next s).text) trivial
    exact hreported.trans (ho blocks hreported.blocks)
  classAtom kind restrict s _ := by
    have hmembers := follows_readClass (r := r) kind none (follows_opened r s)
    exact follows_finishAtom hmembers _ _ _ _
  emptyAtom restrict s _ _ :=
    follows_finishAtom (c := ⟨_, r.opened s⟩) (follows_opened r s) _ _ _ _
  escapedAtom restrict s _ _ :=
    follows_articleAtom _ _ _ (c := ⟨_, (r.nextAt .atomContent (r.opened s)).state⟩)
      ((follows_opened r s).nextAt r _)
  articleAtom restrict s _ _ _ :=
    follows_articleAtom _ _ _ (c := ⟨_, r.opened s⟩) (follows_opened r s)
  propertyAtom restrict s _ _ ho :=
    ((follows_opened r s).next r).trans (ho s.blocks rfl)
  property_error mark restrict name s problem hchain blocks hblocks :=
    follows_abandonAtom ((Follows.refl hblocks).report problem (orderly_chain hchain)) mark restrict
  property_ok mark restrict name s c _ hvalues blocks hblocks := by
    have hkept : s.Follows s.blocks (r.readValues c none s).val.terminator.state := hvalues
    rw [hblocks] at hkept
    exact follows_closeProperty mark restrict c hkept
  values_more c result s result' s' _ _ hstate hfirst hothers := by
    subst hstate
    have hfirst : s.Follows s.blocks (r.readOneValue c result s).val.terminator.state := hfirst
    have hothers : State.Follows _ _ (r.readValues c result' _).val.terminator.state := hothers
    rw [hfirst.blocks] at hothers
    exact hfirst.trans hothers
  values_last c result s _ hlast := hlast
  value_wildcard c result s _ :=
    (follows_combine ((Follows.refl rfl).next r) _ _ _).next r
  value_openQuery c result s combined _ heq hsub := by
    subst heq
    have hentered := ((Follows.refl (s := s) rfl).next r).enter .subquery
    exact (follows_addSubquery c result (hentered.trans (hsub s.blocks rfl))).next r
  value_delimiter c result s _ _ := (Follows.refl rfl).next r
  value_literal c result s _ :=
    follows_addLiteral c result _ ((Follows.refl rfl).next r)

theorem follows_readAtom (r : Reader) (restrict : Bool) (s : State) :
    s.Follows s.blocks (r.readAtom restrict s).val.state :=
  (orderlyInvariant_preserved r).atom restrict s

theorem follows_readSubquery (r : Reader) (restrict : Bool) (s : State) :
    s.Follows s.blocks (r.readSubquery restrict (s.enter .subquery)).val.state := by
  have h := (orderlyInvariant_preserved r).subquery restrict (s.enter .subquery) s.blocks rfl
  exact ((Follows.refl rfl).enter .subquery).trans h

theorem follows_readValues (r : Reader) (c : Chain) (result : Option Description) (s : State) :
    s.Follows s.blocks (r.readValues c result s).val.terminator.state :=
  (orderlyInvariant_preserved r).values c result s

-- =========================================================== whole queries

/-- The ways in which the reading of a whole query can end: nothing is left to
read, or a `</q>` was found that closes nothing, and everything was given up
with a report of that. -/
inductive Ends (s : State) : Outcome → Prop
  | finish {o : Outcome} : s.Follows [] o.state → Text.isBlankText o.state.rest = true → Ends s o
  | stray {t : State} (restricted : Bool) (chunk : Text) : s.Follows [] t →
    Token.ofChunk chunk = .closeQuery →
    Ends s ⟨none, restricted, t.report (.mismatchedDelimiter none (some chunk))⟩

theorem Ends.of_follows {o : Outcome} (h : s.Follows [] t) (ho : Ends t o) : Ends s o := by
  cases ho with
  | finish hfollows hblank => exact .finish (h.trans hfollows) hblank
  | stray restricted chunk hfollows hclose =>
    exact .stray restricted chunk (h.trans hfollows) hclose

/-- At the end of the query there is no block to be closed. -/
theorem ends_conclude (mark : Nat) (p : Progress) (h : s.Follows [] t) (hrest : t.rest = []) :
    Ends s (r.conclude mark p (leaveAtEnd t)) := by
  rw [leaveAtEnd_of_nil h.blocks]
  refine .finish (follows_conclude mark p h) ?_
  rw [rest_conclude, hrest]
  rfl

/-- Nothing is open, so a `</q>` closes nothing. -/
theorem ends_leaveSubquery (mark : Nat) (restrict : Bool) {chunk : Text} (p : Progress)
    (h : s.Follows [] t) (hclose : Token.ofChunk chunk = .closeQuery) :
    Ends s (r.leaveSubquery mark restrict chunk p t) := by
  have hblocks : t.blocks = [] := h.blocks
  have hhead : t.blocks.head? ≠ some .subquery := by
    rw [hblocks]
    exact nofun
  have hexpected : t.expected? = none := by
    rw [expected?, hblocks]
    rfl
  have hleft : s.Follows [] t.leave := ⟨congrArg List.tail hblocks, h.added⟩
  rw [leaveSubquery, if_neg hhead, hexpected]
  exact .stray restrict chunk hleft hclose

/-- A subquery that is read with nothing open is a whole query. -/
def endingInvariant : Invariant where
  subquery _ s o := s.blocks = [] → Ends s o
  alternatives _ _ _ s o := s.blocks = [] → Ends s o
  atom _ _ _ := True
  property _ _ _ _ _ := True
  values _ _ _ _ := True
  oneValue _ _ _ _ := True

theorem endingInvariant_preserved (r : Reader) : endingInvariant.Preserved r where
  subquery_nil restrict s hnil hblocks :=
    ends_conclude _ _ ((Follows.refl hblocks).next r) (rest_next_of_nil hnil).2
  subquery_alternatives restrict s _ h := h
  finish mark restrict p s hnil hblocks := by
    apply ends_conclude _ _ (follows_finishAlternative p ((Follows.refl hblocks).next r))
    rw [rest_finishAlternative]
    exact (rest_next_of_nil hnil).2
  openAtom mark restrict p s p' s' _ heq _ ho hblocks := by
    have hatom := ((Follows.refl rfl).next r).trans (follows_readAtom r false (r.next s).state)
    have hadd := follows_addCondition (r := r) p hatom
    rw [heq, show (r.next s).state.blocks = [] from hblocks] at hadd
    exact .of_follows hadd (ho hadd.blocks)
  openQuery mark restrict p s p' s' _ heq _ ho hblocks := by
    have hsub := ((Follows.refl rfl).next r).trans (follows_readSubquery r false (r.next s).state)
    have hadd := follows_addCondition (r := r) p hsub
    rw [heq, show (r.next s).state.blocks = [] from hblocks] at hadd
    exact .of_follows hadd (ho hadd.blocks)
  or mark restrict p s p' s' _ heq ho hblocks := by
    have hfinish := follows_finishAlternative (r := r) p ((Follows.refl hblocks).next r)
    rw [heq] at hfinish
    exact .of_follows hfinish (ho hfinish.blocks)
  closeQuery mark restrict p s hclose hblocks :=
    ends_leaveSubquery mark restrict _
      (follows_finishAlternative p ((Follows.refl hblocks).next r)) hclose
  wildcard mark restrict p s _ ho hblocks :=
    .of_follows ((Follows.refl hblocks).next r) (ho hblocks)
  unexpected mark restrict p s s' _ heq ho hblocks := by
    subst heq
    have hreported :=
      ((Follows.refl hblocks).next r).report (.unexpectedPart (r.next s).text) trivial
    exact .of_follows hreported (ho hreported.blocks)
  classAtom _ _ _ _ := trivial
  emptyAtom _ _ _ _ := trivial
  escapedAtom _ _ _ _ := trivial
  articleAtom _ _ _ _ _ := trivial
  propertyAtom _ _ _ _ _ := trivial
  property_error _ _ _ _ _ _ := trivial
  property_ok _ _ _ _ _ _ _ := trivial
  values_more _ _ _ _ _ _ _ _ _ _ := trivial
  values_last _ _ _ _ _ := trivial
  value_wildcard _ _ _ _ := trivial
  value_openQuery _ _ _ _ _ _ _ := trivial
  value_delimiter _ _ _ _ _ := trivial
  value_literal _ _ _ _ := trivial

/-- The default restriction of a whole query is added when everything has been
read, and after a stray `</q>` there is nothing to add it to. -/
theorem read_ends (r : Reader) (query : Text) :
    ∃ o : Outcome, Ends (.start query) o ∧ (r.read query).state = o.state := by
  have hwhole : Ends (.start query) (r.readSubquery false (.start query)).val :=
    (endingInvariant_preserved r).subquery false (.start query) rfl
  rw [read]
  dsimp only
  generalize (r.readSubquery false (.start query)).val = whole at hwhole
  by_cases hrestricted : whole.restricted = true
  · rw [if_pos hrestricted]
    exact ⟨whole, hwhole, rfl⟩
  · rw [if_neg hrestricted]
    cases hwhole with
    | finish hfollows hblank =>
      refine ⟨⟨none, false, _⟩, .finish (follows_combine hfollows _ _ _) ?_, rfl⟩
      show Text.isBlankText (r.combine _ _ _ _).state.rest = true
      rw [rest_combine]
      exact hblank
    | stray restricted chunk hfollows hclose =>
      exact ⟨_, .stray restricted chunk hfollows hclose, rfl⟩

end Reader

end InlineQuery
