/-
The forms that conditions and values have.

Every condition a reader makes is well-formed, and `combine` either drops what
comes in or merges it with what is there. A statement about the form of
conditions, and one for every chain about the form of its values, therefore
hold of all readings if they hold of what is made from text and pass through
`Mode.merge`, where both sides may be taken as well-formed. `Forms` lists what
that takes, and `Forms.read` is what follows of whole queries.
-/
import InlineQuery.Proofs.Description.Reachable
import InlineQuery.Proofs.Reading.Associativity

namespace InlineQuery

namespace Reader

/-- What has to be shown of a form of conditions, and of a form of the values of
each chain, for everything that is read to be of that form. -/
structure Forms (r : Reader) (Condition : Description → Prop)
    (Value : Chain → Description → Prop) : Prop where
  defaults : Every Condition r.defaults
  classMember : ∀ kind t, Every Condition (classMember r.config kind t).1
  articleMember : ∀ t, Every Condition (articleMember r.config t).1
  merge : ∀ mode a b, a.WellFormed → b.WellFormed → Condition a → Condition b →
    Condition (Mode.merge mode a b)
  literal : ∀ c t, Value c (value r.config c.last c.valueType t).1
  thing : ∀ c, Value c (.thing [])
  condition : ∀ c d, c.valueType = .page → Condition d → Value c d
  mergeValues : ∀ c a b, a.WellFormed → b.WellFormed → Value c a → Value c b →
    Value c (Mode.merge .disjunctive a b)
  describe : ∀ name c inner, chain r.config name = .ok c → Value c inner →
    Condition (c.describe inner)

namespace Forms

variable {r : Reader} {Condition : Description → Prop} {Value : Chain → Description → Prop}

/-- A form of well-formed conditions passes through `combine` if it passes
through merging. -/
theorem every_combine {P : Description → Prop} {mode : Mode}
    (hmerge : ∀ a b, a.WellFormed → b.WellFormed → P a → P b → P (mode.merge a b))
    (permitted : FeatureSet) {current incoming : Option Description}
    (hcurrent : Every (fun d => d.WellFormed ∧ P d) current)
    (hincoming : Every (fun d => d.WellFormed ∧ P d) incoming) :
    Every (fun d => d.WellFormed ∧ P d)
      (InlineQuery.combine permitted mode current incoming).result := by
  rcases combine_eq_current_or_merge permitted mode current incoming with heq | heq
  · rw [heq]
    exact hcurrent
  · rw [heq]
    exact Every.merge (fun a b ha hb => ⟨mode.wellFormed_merge ha.1 hb.1,
      hmerge a b ha.1 hb.1 ha.2 hb.2⟩) hcurrent hincoming

/-- What `+` stands for is the default restriction, on pages, or nothing. -/
theorem wildcard (h : r.Forms Condition Value) (c : Chain) : Value c (r.wildcard c.valueType) := by
  unfold Reader.wildcard
  split
  · next defaults hpage heq =>
    have hdefaults := h.defaults
    rw [heq] at hdefaults
    exact h.condition c defaults hpage (every_some.1 hdefaults)
  · exact h.thing c

theorem offeredValue (h : r.Forms Condition Value) {c : Chain} {d : Description}
    (hd : r.OfferedValue Condition c d) : Value c d := by
  cases hd with
  | literal t => exact h.literal c t
  | wildcard => exact h.wildcard c
  | subquery hpage hd => exact h.condition c d hpage hd
  | thing => exact h.thing c

/-- Under a well-formed restriction, the form of conditions and that of values
are kept throughout. -/
theorem sorts (h : r.Forms Condition Value)
    (hdefaults : Every Description.WellFormed r.defaults) :
    r.Sorts (fun d => d.WellFormed ∧ Condition d) (fun d => d.WellFormed ∧ Condition d)
      (fun c d => d.WellFormed ∧ Value c d) where
  offered _ hd := hd
  defaults d hd := ⟨hdefaults d hd, h.defaults d hd⟩
  classMember kind t d hd := ⟨wellFormed_classMember r.config kind t d hd, h.classMember kind t d hd⟩
  articleMember t d hd := ⟨wellFormed_articleMember r.config t d hd, h.articleMember t d hd⟩
  wildcard c := ⟨(keeps_wellFormed hdefaults).wildcard c.valueType, h.wildcard c⟩
  describe name c inner hchain hinner :=
    ⟨wellFormed_describe c hinner.1, h.describe name c inner hchain hinner.2⟩
  combine mode _ _ hcurrent hincoming :=
    every_combine (h.merge mode) r.config.features hcurrent hincoming
  addValue c _ _ hcurrent hd :=
    every_combine (h.mergeValues c) r.config.features hcurrent <| every_some.2
      ⟨(keeps_wellFormed hdefaults).offeredValue (hd.mono fun _ he => he.1),
        h.offeredValue (hd.mono fun _ he => he.2)⟩

/-- What is read is of the form, unless it is no condition at all. -/
theorem read (h : r.Forms Condition Value) (hdefaults : Every Description.WellFormed r.defaults)
    (query : Text) :
    (r.read query).description = .thing [] ∨
      (r.read query).description.WellFormed ∧ Condition (r.read query).description :=
  (h.sorts hdefaults).read query

end Forms

end Reader

end InlineQuery
