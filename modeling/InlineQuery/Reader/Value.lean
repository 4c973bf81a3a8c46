/-
Values and names: the parts of an atom that are read without looking at what
surrounds them.

A page is named by its title, with the name of its namespace in front of it
or none. A value is read by the type of its property, behind an optional
comparator. The text of a value may contain balanced pairs of `[[` and `]]`,
and bars within them.
-/
import InlineQuery.Reader.State

namespace InlineQuery

namespace Reader

-- ================================================================== pages

/-- The title of a page in the main namespace. -/
def mainPage? (config : Config) (t : Text) : Option Page :=
  (normalizeTitle? config.capitalLinks t).map Page.main

/-- The page that a text names. Text in front of a colon is the name of a
namespace if there is one of that name, and part of the title otherwise. A
colon at the very beginning does not count. -/
def page? (config : Config) (t : Text) : Option Page :=
  let t := match Text.trim t with
    | ':' :: rest => rest
    | t => t
  match Text.splitOnce? ':' t with
  | none => mainPage? config t
  | some (front, title) =>
    let name := Text.trim front
    match if name.isEmpty then none else config.namespaceId? name with
    | none => mainPage? config t
    | some id =>
      (normalizeTitle? config.capitalLinks title).map fun title =>
        ⟨id, (config.namespaceName? id).getD name, title⟩

-- ================================================================= values

/-- The item that a text writes, as a value of the given type. -/
def item? (config : Config) (valueType : ValueType) (t : Text) : Option Item :=
  match valueType with
  | .page => (page? config t).map .page
  | .number => (Decimal.read? t).map .number
  | .text => if t.isEmpty then none else some (.text t)

/-- The condition that a value makes on its property, and the problem if
there is no such value; the condition is then that there be any value. -/
def value (config : Config) (property : Property) (valueType : ValueType) (t : Text) :
    Description × Option Diagnostic :=
  let t := Text.trim t
  let (comparator, literal) := Comparator.split config.strictComparators config.comparators t
  match item? config valueType (Text.trim literal) with
  | some item => (.value item (some property) comparator [], none)
  | none => (.thing [], some (.invalidValue t valueType))

/-- The condition that `+` makes on the value of a property: it is in one of
the default namespaces, if it is a page and there are any. -/
def wildcard (r : Reader) (valueType : ValueType) : Description :=
  match valueType, r.defaults with
  | .page, some defaults => defaults
  | _, _ => .thing []

/-- The text of a value, the chunk that ended it, and the rest of the
query. -/
structure ValueText where
  value : Text
  terminator : Text
  rest : Text

/-- The number of brackets open after a chunk, given the number before it;
none are open after the chunk that ends a value. -/
def bracketsAfter (openBrackets : Nat) (chunk : Text) : Nat :=
  match Token.ofChunk chunk with
  | .openAtom => openBrackets + 1
  | .closeAtom => openBrackets - 1
  | .bars => if openBrackets = 1 then 0 else openBrackets
  | .bar => if openBrackets = 1 then 0 else openBrackets
  | .finish => 0
  | _ => openBrackets

/-- A value of which `value` has been read and in which `openBrackets`
brackets are open, that of the atom included. -/
def readValueFrom (labels : ClassLabels) (openBrackets : Nat) (value t : Text) : ValueText :=
  let cut := (StopSet.atomContent.cut labels t).trimmed
  let stillOpen := bracketsAfter openBrackets cut.chunk
  if stillOpen = 0 then ⟨value, cut.chunk, cut.rest⟩
  else readValueFrom labels stillOpen (value ++ cut.chunk) cut.rest
termination_by t.length
decreasing_by
  rename_i h
  refine StopSet.cut_length_lt_of_chunk fun hnil => h ?_
  show bracketsAfter openBrackets (Text.trim (StopSet.atomContent.cut labels t).chunk) = 0
  rw [hnil]
  rfl

/-- A value whose first chunk has been read already. -/
def readValue (labels : ClassLabels) (first t : Text) : ValueText :=
  readValueFrom labels 1 first t

theorem readValueFrom_length_le (labels : ClassLabels) (openBrackets : Nat) (value t : Text) :
    (readValueFrom labels openBrackets value t).rest.length ≤ t.length := by
  fun_induction readValueFrom labels openBrackets value t with
  | case1 openBrackets value t cut stillOpen h =>
    exact StopSet.cut_length_le labels .atomContent t
  | case2 openBrackets value t cut stillOpen h ih =>
    exact Nat.le_trans ih (StopSet.cut_length_le labels .atomContent t)

-- ================================================================== chains

/-- The properties that an atom names: the ones to follow, outermost first,
then the one that has the value, and the type of that value. -/
structure Chain where
  outer : List Property
  last : Property
  valueType : ValueType

/-- The chain of the given names, behind the properties that were read
already. Only pages have properties to follow. -/
def chainFrom (config : Config) (outer : List Property) (name : Text) :
    List Text → Except Diagnostic Chain
  | [] =>
    match Property.read? config.capitalLinks name with
    | none => .error (.invalidProperty (Text.trim name))
    | some property => .ok ⟨outer, property, config.valueType property⟩
  | following :: names =>
    match Property.read? config.capitalLinks name with
    | none => .error (.invalidProperty (Text.trim name))
    | some property =>
      if config.valueType property = .page then
        chainFrom config (outer ++ [property]) following names
      else .error (.valueSubquery (Text.trim following))

/-- The chain that a text names: names with dots between them, or a single
name if the text starts with a space. -/
def chain (config : Config) (t : Text) : Except Diagnostic Chain :=
  match if t.head? = some ' ' then [t] else Text.splitAll '.' t with
  | [] => chainFrom config [] t []
  | name :: names => chainFrom config [] name names

/-- A condition on the value, as a condition on the page at the beginning of
the chain. -/
def Chain.describe (c : Chain) (inner : Description) : Description :=
  (c.outer ++ [c.last]).foldr (fun property inner => .someProperty property inner []) inner

end Reader

end InlineQuery
