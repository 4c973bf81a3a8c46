/-
What holds of every condition that a reader makes.

A reader makes its conditions in two ways: from a piece of text, or from
conditions it has made before. It goes on only with what `combine` accepts;
everything else is on its way there, offered but not accepted yet. A
statement about accepted conditions and one about offered ones therefore hold
of all readings once they hold of the pieces and pass through `combine`.

# Two sorts of conditions

Atoms and subqueries make conditions on pages. What stands behind a property
is a condition on its values, which may say things that no atom can: that
there be any value, or that it compare with a given item. `Sorts` lists what
has to be shown of a statement about the one and, for every chain of
properties, a statement about the other; `Sorts.preserved` is the induction
over all readings, done once for every such choice, and what follows of whole
queries is `Sorts.read`. Statements that make no difference between the two
are `Keeps`, a special case.
-/
import InlineQuery.Proofs.Reading.Combination
import InlineQuery.Proofs.Reading.Steps

namespace InlineQuery

namespace Reader

/-- The condition, if there is one, has the property. -/
def Every (P : Description → Prop) (result : Option Description) : Prop := ∀ d ∈ result, P d

variable {P : Description → Prop}

theorem every_none : Every P none := fun _ h => nomatch h

theorem every_some {d : Description} : Every P (some d) ↔ P d := by
  simp [Every]

theorem Every.getD {result : Option Description} (h : Every P result) {d : Description}
    (hd : P d) : P (result.getD d) := by
  cases result with
  | none => exact hd
  | some e => exact every_some.1 h

/-- A property that passes to the condition two conditions make passes through
their merging, where either may be missing. -/
theorem Every.merge {f : Description → Description → Description}
    (hf : ∀ a b, P a → P b → P (f a b)) {current incoming : Option Description}
    (hcurrent : Every P current) (hincoming : Every P incoming) :
    Every P (current.merge f incoming) := by
  cases current with
  | none => cases incoming <;> exact hincoming
  | some a =>
    cases incoming with
    | none => exact hcurrent
    | some b => exact every_some.2 (hf a b (every_some.1 hcurrent) (every_some.1 hincoming))

theorem every_append {ds : List (Option Description)} {d : Option Description}
    (hds : ∀ d ∈ ds, Every P d) (hd : Every P d) : ∀ x ∈ ds ++ [d], Every P x :=
  List.forall_mem_append.2 ⟨hds, List.forall_mem_singleton.2 hd⟩

/-- The alternative under way and those before it have the property. -/
structure Progress.All (P : Description → Prop) (p : Progress) : Prop where
  current : Every P p.current
  finished : ∀ d ∈ p.finished, Every P d

theorem all_start (restrict : Bool) : (Progress.start restrict).All P :=
  ⟨every_none, fun _ h => nomatch h⟩

/-- What is offered as a value of a chain: a literal, the wildcard, a condition
on pages if the values are pages, and any value at all in its place if not. -/
inductive OfferedValue (r : Reader) (Accepted : Description → Prop) (c : Chain) :
    Description → Prop
  | literal (t : Text) : OfferedValue r Accepted c (value r.config c.last c.valueType t).1
  | wildcard : OfferedValue r Accepted c (r.wildcard c.valueType)
  | subquery {d : Description} : c.valueType = .page → Accepted d → OfferedValue r Accepted c d
  | thing : OfferedValue r Accepted c (.thing [])

theorem OfferedValue.mono {r : Reader} {P Q : Description → Prop} (hPQ : ∀ d, P d → Q d)
    {c : Chain} {d : Description} (h : r.OfferedValue P c d) : r.OfferedValue Q c d := by
  cases h with
  | literal t => exact .literal t
  | wildcard => exact .wildcard
  | subquery hpage hd => exact .subquery hpage (hPQ d hd)
  | thing => exact .thing

/-- What has to be shown of three statements for them to hold of all conditions
that a reader offers, of all that it accepts, and of all values of a chain. -/
structure Sorts (r : Reader) (Offered Accepted : Description → Prop)
    (Value : Chain → Description → Prop) : Prop where
  offered : ∀ d, Accepted d → Offered d
  defaults : Every Accepted r.defaults
  classMember : ∀ kind t, Every Offered (classMember r.config kind t).1
  articleMember : ∀ t, Every Offered (articleMember r.config t).1
  wildcard : ∀ c, Value c (r.wildcard c.valueType)
  describe : ∀ name c inner, chain r.config name = .ok c → Value c inner →
    Offered (c.describe inner)
  combine : ∀ mode current incoming, Every Accepted current → Every Offered incoming →
    Every Accepted (InlineQuery.combine r.config.features mode current incoming).result
  addValue : ∀ c current d, Every (Value c) current → r.OfferedValue Accepted c d →
    Every (Value c) (InlineQuery.combine r.config.features .disjunctive current (some d)).result

namespace Sorts

variable {r : Reader} {Offered Accepted : Description → Prop} {Value : Chain → Description → Prop}

section

variable (h : r.Sorts Offered Accepted Value)

include h

theorem every_offered {result : Option Description} (hresult : Every Accepted result) :
    Every Offered result := fun d hd => h.offered d (hresult d hd)

theorem every_combine (mode : Mode) {current incoming : Option Description} (s : State)
    (hcurrent : Every Accepted current) (hincoming : Every Offered incoming) :
    Every Accepted (r.combine mode current incoming s).result :=
  h.combine mode current incoming hcurrent hincoming

-- =================================================================== atoms

theorem readClass (kind : ClassKind) (result : Option Description) (s : State)
    (hresult : Every Accepted result) : Every Accepted (r.readClass kind result s).result := by
  have hmember (s : State) (result : Option Description) (t : Text)
      (hresult : Every Accepted result) :
      Every Accepted
        (r.combine .disjunctive result (Reader.classMember r.config kind t).1 s).result :=
    h.every_combine .disjunctive s hresult (h.classMember kind t)
  fun_induction Reader.readClass r kind result s with
  | case1 result s name token hend => exact hresult
  | case2 result s name token hend combined following hmore ih =>
    refine ih ?_
    simp only [combined]
    split
    · exact hresult
    · exact hmember _ _ _ hresult
  | case3 result s name token hend combined following hmore =>
    simp only [combined]
    split
    · exact hresult
    · exact hmember _ _ _ hresult

theorem articleAtom (mark : Nat) (c : Chunk) :
    Every Accepted (r.articleAtom mark false none c).result := by
  refine articleAtom_keeps every_none (fun result t s hresult => ?_) every_none c
  exact h.every_combine .disjunctive s hresult (h.articleMember t)

theorem closeProperty (mark : Nat) {name : Text} {c : Chain} (hchain : chain r.config name = .ok c)
    {values : Members} (hvalues : Every (Value c) values.result) :
    Every Offered (r.closeProperty mark false c values).result := by
  unfold Reader.closeProperty
  split
  · next inner heq =>
    rw [heq] at hvalues
    rw [result_finishAtom]
    exact every_some.2 (h.describe name c inner hchain (every_some.1 hvalues))
  · rw [result_finishAtom]
    exact every_some.2 (h.describe name c _ hchain (h.wildcard c))

theorem addSubquery (c : Chain) {result : Option Description} {o : Outcome}
    (hresult : Every (Value c) result) (ho : Every Accepted o.result) :
    Every (Value c) (r.addSubquery c result o).result := by
  unfold Reader.addSubquery
  split
  · next hpage =>
    cases hcondition : o.result with
    | none => exact hresult
    | some d =>
      rw [hcondition, every_some] at ho
      exact h.addValue c result d hresult (.subquery hpage ho)
  · exact h.addValue c result _ hresult .thing

theorem addLiteral (c : Chain) {result : Option Description} (hresult : Every (Value c) result)
    (text : ValueText) (s : State) : Every (Value c) (r.addLiteral c result text s).result :=
  h.addValue c result _ hresult (.literal text.value)

-- ============================================================== subqueries

theorem restrictAll {defaults : Description} (hdefaults : Accepted defaults)
    {ds : List (Option Description)} (hds : ∀ d ∈ ds, Every Accepted d) (s : State) :
    ∀ d ∈ (r.restrictAll defaults ds s).1, Every Accepted d := by
  induction ds generalizing s with
  | nil => exact hds
  | cons d ds ih =>
    intro x hx
    rw [Reader.restrictAll] at hx
    rcases List.mem_cons.1 hx with rfl | hx
    · exact h.every_combine .conjunctive s (hds d List.mem_cons_self)
        (every_some.2 (h.offered _ hdefaults))
    · exact ih (fun d' hd' => hds d' (List.mem_cons_of_mem d hd')) _ x hx

theorem finishAlternative {p : Progress} (hp : p.All Accepted) (s : State) :
    (r.finishAlternative p s).1.All Accepted := by
  have hdefaults := h.defaults
  unfold Reader.finishAlternative
  split
  · exact ⟨every_none, every_append hp.finished hp.current⟩
  · next defaults heq =>
    rw [heq] at hdefaults
    split
    · exact ⟨every_none,
        every_append (h.restrictAll (every_some.1 hdefaults) hp.finished s) hp.current⟩
    · split
      · exact ⟨every_none, every_append hp.finished
          (h.every_combine .conjunctive s hp.current (h.every_offered hdefaults))⟩
      · exact ⟨every_none, every_append hp.finished hp.current⟩

theorem combineAll {result : Option Description} {ds : List (Option Description)}
    (hresult : Every Accepted result) (hds : ∀ d ∈ ds, Every Accepted d) (s : State) :
    Every Accepted (r.combineAll result ds s).result := by
  induction ds generalizing result s with
  | nil => exact hresult
  | cons d ds ih =>
    rw [Reader.combineAll]
    exact ih
      (h.every_combine .disjunctive s hresult (h.every_offered (hds d List.mem_cons_self)))
      (fun d' hd' => hds d' (List.mem_cons_of_mem d hd')) _

theorem conclude (mark : Nat) {p : Progress} (hp : p.All Accepted) (s : State) :
    Every Accepted (r.conclude mark p s).result := by
  unfold Reader.conclude
  split
  · exact every_none
  · exact h.combineAll every_none hp.finished s

theorem leaveSubquery (mark : Nat) (restrict : Bool) (chunk : Text) {p : Progress}
    (hp : p.All Accepted) (s : State) :
    Every Accepted (r.leaveSubquery mark restrict chunk p s).result := by
  unfold Reader.leaveSubquery
  split
  · exact h.conclude mark hp _
  · exact every_none

theorem addCondition {p : Progress} (hp : p.All Accepted) {o : Outcome}
    (ho : Every Offered o.result) : (r.addCondition p o).1.All Accepted :=
  ⟨h.every_combine .conjunctive o.state hp.current ho, hp.finished⟩

end

-- ============================================================ all readings

/-- Subqueries come out accepted, atoms are offered, and values are values of
their chain. -/
def invariant (Offered Accepted : Description → Prop) (Value : Chain → Description → Prop) :
    Invariant where
  subquery _ _ o := Every Accepted o.result
  alternatives _ _ p _ o := p.All Accepted → Every Accepted o.result
  atom restrict _ o := restrict = false → Every Offered o.result
  property _ restrict _ _ o := restrict = false → Every Offered o.result
  values c result _ m := Every (Value c) result → Every (Value c) m.result
  oneValue c result _ m := Every (Value c) result → Every (Value c) m.result

theorem preserved (h : r.Sorts Offered Accepted Value) :
    (invariant Offered Accepted Value).Preserved r where
  subquery_nil restrict s _ := h.conclude _ (all_start restrict) _
  subquery_alternatives restrict s _ ho := ho (all_start restrict)
  finish mark restrict p s _ hp := h.conclude mark (h.finishAlternative hp _) _
  openAtom mark restrict p s p' s' _ heq hatom ho hp :=
    ho (by simpa only [heq] using h.addCondition hp (hatom rfl))
  openQuery mark restrict p s p' s' _ heq hsub ho hp :=
    ho (by simpa only [heq] using h.addCondition hp (h.every_offered hsub))
  or mark restrict p s p' s' _ heq ho hp :=
    ho (by simpa only [heq] using h.finishAlternative hp (r.next s).state)
  closeQuery mark restrict p s _ hp :=
    h.leaveSubquery mark restrict _ (h.finishAlternative hp _) _
  wildcard mark restrict p s _ ho := ho
  unexpected mark restrict p s s' _ _ ho := ho
  classAtom kind restrict s _ hrestrict := by
    subst hrestrict
    rw [classAtom, result_finishAtom]
    exact h.every_offered (h.readClass kind none _ every_none)
  emptyAtom restrict s _ _ hrestrict := by
    subst hrestrict
    rw [result_finishAtom]
    exact every_none
  escapedAtom restrict s _ _ hrestrict := by
    subst hrestrict
    exact h.every_offered (h.articleAtom _ _)
  articleAtom restrict s _ _ _ hrestrict := by
    subst hrestrict
    exact h.every_offered (h.articleAtom _ _)
  propertyAtom restrict s _ _ ho := ho
  property_error mark restrict name s problem _ hrestrict := by
    subst hrestrict
    rw [abandonAtom, result_finishAtom]
    exact every_none
  property_ok mark restrict name s c hchain hvalues hrestrict := by
    subst hrestrict
    exact h.closeProperty mark hchain (hvalues every_none)
  values_more c result s result' s' _ heq _ hfirst hothers hresult :=
    hothers (heq ▸ hfirst hresult)
  values_last c result s _ hlast := hlast
  value_wildcard c result s _ hresult := h.addValue c result _ hresult .wildcard
  value_openQuery c result s combined _ heq hsub hresult := by
    subst heq
    exact h.addSubquery c hresult hsub
  value_delimiter c result s _ _ hresult := hresult
  value_literal c result s _ hresult := h.addLiteral c hresult _ _

/-- What is accepted of every part of a query is accepted of the whole, unless
there is no condition in it at all. -/
theorem read (h : r.Sorts Offered Accepted Value) (query : Text) :
    (r.read query).description = .thing [] ∨ Accepted (r.read query).description := by
  have hresult {result : Option Description} (hevery : Every Accepted result) :
      result.getD (.thing []) = .thing [] ∨ Accepted (result.getD (.thing [])) :=
    Every.getD (P := fun d => d = .thing [] ∨ Accepted d) (fun d hd => .inr (hevery d hd)) (.inl rfl)
  have hwhole : Every Accepted (r.readSubquery false (.start query)).val.result :=
    h.preserved.subquery false (.start query)
  unfold Reader.read
  dsimp only
  split
  · exact hresult hwhole
  · exact hresult (h.every_combine .conjunctive _ h.defaults (h.every_offered hwhole))

end Sorts

-- ========================================================= one sort for both

/-- What has to be shown of two statements for them to hold of all that a
reader offers and of all that it accepts. -/
structure Keeps (r : Reader) (Offered Accepted : Description → Prop) : Prop where
  offered : ∀ d, Accepted d → Offered d
  thing : Accepted (.thing [])
  defaults : Every Accepted r.defaults
  classMember : ∀ kind t, Every Offered (classMember r.config kind t).1
  articleMember : ∀ t, Every Offered (articleMember r.config t).1
  value : ∀ property valueType t, Offered (value r.config property valueType t).1
  describe : ∀ name c inner, chain r.config name = .ok c → Accepted inner →
    Offered (c.describe inner)
  combine : ∀ mode current incoming, Every Accepted current → Every Offered incoming →
    Every Accepted (InlineQuery.combine r.config.features mode current incoming).result

namespace Keeps

variable {r : Reader} {Offered Accepted : Description → Prop}

/-- What `+` stands for is part of the default restriction. -/
theorem wildcard (h : r.Keeps Offered Accepted) (valueType : ValueType) :
    Accepted (r.wildcard valueType) := by
  unfold Reader.wildcard
  split
  · next heq =>
    have hdefaults := h.defaults
    rw [heq] at hdefaults
    exact every_some.1 hdefaults
  · exact h.thing

theorem offeredValue (h : r.Keeps Offered Accepted) {c : Chain} {d : Description}
    (hd : r.OfferedValue Accepted c d) : Offered d := by
  cases hd with
  | literal t => exact h.value c.last c.valueType t
  | wildcard => exact h.offered _ (h.wildcard c.valueType)
  | subquery _ hd => exact h.offered _ hd
  | thing => exact h.offered _ h.thing

/-- Values are accepted as other conditions are. -/
theorem sorts (h : r.Keeps Offered Accepted) : r.Sorts Offered Accepted fun _ => Accepted where
  offered := h.offered
  defaults := h.defaults
  classMember := h.classMember
  articleMember := h.articleMember
  wildcard c := h.wildcard c.valueType
  describe := h.describe
  combine := h.combine
  addValue _ current d hcurrent hd :=
    h.combine .disjunctive current (some d) hcurrent (every_some.2 (h.offeredValue hd))

/-- Subqueries and values come out accepted, atoms are offered. -/
def invariant (Offered Accepted : Description → Prop) : Invariant where
  subquery _ _ o := Every Accepted o.result
  alternatives _ _ p _ o := p.All Accepted → Every Accepted o.result
  atom restrict _ o := restrict = false → Every Offered o.result
  property _ restrict _ _ o := restrict = false → Every Offered o.result
  values _ result _ m := Every Accepted result → Every Accepted m.result
  oneValue _ result _ m := Every Accepted result → Every Accepted m.result

theorem preserved (h : r.Keeps Offered Accepted) :
    (invariant Offered Accepted).Preserved r :=
  h.sorts.preserved

/-- What is accepted of every part of a query is accepted of the whole. -/
theorem read (h : r.Keeps Offered Accepted) (query : Text) :
    Accepted (r.read query).description := by
  rcases h.sorts.read query with heq | haccepted
  · rw [heq]
    exact h.thing
  · exact haccepted

end Keeps

end Reader

end InlineQuery
