/-
Features: the constructs of the query language that a wiki may permit or
forbid, one by one. A parse is told the set of permitted features, and every
condition reports the set of those it makes use of.

Sets are written as names with bars between them, `PROPERTY | CATEGORY`. A
set may also hold numbered members beyond the six features; they mean
nothing, but they are kept, and written in hexadecimal.
-/
import InlineQuery.Text.Blank

namespace InlineQuery

/-- A construct that can be permitted. -/
inductive Feature
  | property
  | category
  | concept
  | namespaces
  | conjunction
  | disjunction
deriving Repr, DecidableEq

namespace Feature

/-- Every feature, in the order of their names in a written set. -/
def all : List Feature :=
  [.property, .category, .concept, .namespaces, .conjunction, .disjunction]

/-- The name of a feature. -/
def name : Feature → Text
  | .property => "PROPERTY".toList
  | .category => "CATEGORY".toList
  | .concept => "CONCEPT".toList
  | .namespaces => "NAMESPACE".toList
  | .conjunction => "CONJUNCTION".toList
  | .disjunction => "DISJUNCTION".toList

end Feature

/-- A set of features; `other` are the members that are no features, as a
number whose binary digits tell which of them are present. -/
structure FeatureSet where
  property : Bool
  category : Bool
  concept : Bool
  namespaces : Bool
  conjunction : Bool
  disjunction : Bool
  other : Nat
deriving Repr, DecidableEq

namespace FeatureSet

/-- The set of no features. -/
def empty : FeatureSet := ⟨false, false, false, false, false, false, 0⟩

/-- The set of all six features. -/
def all : FeatureSet := ⟨true, true, true, true, true, true, 0⟩

/-- Membership of a feature. -/
def has (features : FeatureSet) : Feature → Bool
  | .property => features.property
  | .category => features.category
  | .concept => features.concept
  | .namespaces => features.namespaces
  | .conjunction => features.conjunction
  | .disjunction => features.disjunction

/-- The set of one feature. -/
def only (feature : Feature) : FeatureSet where
  property := feature == .property
  category := feature == .category
  concept := feature == .concept
  namespaces := feature == .namespaces
  conjunction := feature == .conjunction
  disjunction := feature == .disjunction
  other := 0

/-- The members of either set. -/
def union (a b : FeatureSet) : FeatureSet where
  property := a.property || b.property
  category := a.category || b.category
  concept := a.concept || b.concept
  namespaces := a.namespaces || b.namespaces
  conjunction := a.conjunction || b.conjunction
  disjunction := a.disjunction || b.disjunction
  other := a.other ||| b.other

@[simp] theorem has_empty (feature : Feature) : empty.has feature = false := by
  cases feature <;> rfl

@[simp] theorem has_all (feature : Feature) : all.has feature = true := by
  cases feature <;> rfl

@[simp] theorem has_only (f g : Feature) : (only f).has g = (f == g) := by
  cases f <;> cases g <;> rfl

@[simp] theorem has_union (a b : FeatureSet) (feature : Feature) :
    (a.union b).has feature = (a.has feature || b.has feature) := by
  cases feature <;> rfl

-- ======================================================== written as bits

/-- The set whose members are numbered by the binary digits of `bits`: the
six features first, in order, then the members that are none. -/
def ofBits (bits : Nat) : FeatureSet where
  property := bits.testBit 0
  category := bits.testBit 1
  concept := bits.testBit 2
  namespaces := bits.testBit 3
  conjunction := bits.testBit 4
  disjunction := bits.testBit 5
  other := bits / 64

-- ====================================================== reading and writing

/-- The names of the features in the set. -/
def names (features : FeatureSet) : List Text :=
  (Feature.all.filter features.has).map Feature.name

/-- The name of the only member of the set, if it is a feature. -/
def onlyName? (features : FeatureSet) : Option Text :=
  match features.names, features.other with
  | [name], 0 => some name
  | _, _ => none

/-- One part of a written set: the name of a feature, or `0x` and the bits
of a set of at most 32 members. -/
def readPart? (part : Text) : Option FeatureSet :=
  match part with
  | '0' :: 'x' :: digits =>
    let digits := match digits with
      | '+' :: rest => rest
      | _ => digits
    match Text.digits? 16 Text.hexDigit? digits with
    | some bits => if bits < 1 <<< 32 then some (ofBits bits) else none
    | none => none
  | _ => (Feature.all.find? fun feature => feature.name == part).map only

/-- A set as it is written: parts with bars between them; a blank text is
the empty set. -/
def read? (t : Text) : Option FeatureSet :=
  if Text.isBlankText t then some empty
  else (Text.splitAll '|' t).foldlM (fun features part =>
    (readPart? (Text.trim part)).map features.union) empty

/-- The written form of a set. -/
def write (features : FeatureSet) : Text :=
  let numbered :=
    if features.other = 0 then [] else ['0' :: 'x' :: Text.hex (features.other * 64)]
  Text.join " | ".toList (features.names ++ numbered)

end FeatureSet

end InlineQuery
