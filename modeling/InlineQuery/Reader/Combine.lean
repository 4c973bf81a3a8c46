/-
Combining partial results: adjacent conditions must all hold, alternatives
are joined by `||` or `OR`.

Every condition that enters a query passes through `combine`, and so this is
where the permitted features are enforced: on the condition that comes in,
and on the container that a combination would need. What is not permitted is
dropped and reported; the combination never fails in any other way.
-/
import InlineQuery.Description.Measure
import InlineQuery.Description.Printer
import InlineQuery.Reader.State

namespace InlineQuery

/-- How two conditions are combined. -/
inductive Mode
  /-- Both have to hold. -/
  | conjunctive
  /-- One of them has to hold. -/
  | disjunctive
deriving Repr, DecidableEq

namespace Mode

/-- The feature that a container of this mode needs. -/
def feature : Mode → Feature
  | .conjunctive => .conjunction
  | .disjunctive => .disjunction

/-- A container of this mode with one more child; none if the condition is
no such container. -/
def extend? (mode : Mode) (current incoming : Description) : Option Description :=
  match mode, current with
  | .conjunctive, .conjunction _ _ => current.insert? incoming
  | .disjunctive, .disjunction _ _ _ _ => current.insert? incoming
  | _, _ => none

/-- A container of both conditions. Two category lists are one longer list
instead of a disjunction. -/
def join (mode : Mode) (current incoming : Description) : Description :=
  match mode with
  | .conjunctive => .allOf [current, incoming]
  | .disjunctive =>
    match current.mergeCategories? incoming with
    | some merged => merged
    | none => .anyOf [current, incoming]

end Mode

/-- What a combination yields: the combined condition, and the problem if
the incoming condition had to be dropped. -/
structure Combined where
  result : Option Description
  problem : Option Diagnostic

/-- The current condition with the incoming one added. The incoming one is
dropped if the features do not permit it, or if they do not permit the
container that would hold both. -/
def combine (permitted : FeatureSet) (mode : Mode) (current incoming : Option Description) :
    Combined :=
  match incoming with
  | none => ⟨current, none⟩
  | some incoming =>
    let refuse (feature : Feature) : Combined :=
      ⟨current, some (.featureNotPermitted feature incoming.write)⟩
    match incoming.requiredFeature?.filter fun feature => !permitted.has feature with
    | some feature => refuse feature
    | none =>
      match current with
      | none => ⟨some incoming, none⟩
      | some existing =>
        match mode.extend? existing incoming with
        | some extended => ⟨some extended, none⟩
        | none =>
          if permitted.has mode.feature then ⟨some (mode.join existing incoming), none⟩
          else refuse mode.feature

namespace Reader

/-- A condition, if any, and the state in which it was obtained. -/
structure Obtained where
  result : Option Description
  state : State

/-- The combination of two conditions, its problem reported. -/
def combine (r : Reader) (mode : Mode) (current incoming : Option Description) (s : State) :
    Obtained :=
  let combined := InlineQuery.combine r.config.features mode current incoming
  ⟨combined.result,
    match combined.problem with
    | some problem => s.report problem
    | none => s⟩

@[simp] theorem rest_combine (r : Reader) (mode : Mode) (current incoming : Option Description)
    (s : State) : (r.combine mode current incoming s).state.rest = s.rest := by
  rw [combine]
  dsimp only
  split <;> rfl

@[simp] theorem blocks_combine (r : Reader) (mode : Mode) (current incoming : Option Description)
    (s : State) : (r.combine mode current incoming s).state.blocks = s.blocks := by
  rw [combine]
  dsimp only
  split <;> rfl

end Reader

end InlineQuery
