/-
Configurations as JSON documents.

Every member may be left out and then has its default. Members that are not
settings are ignored, whatever they hold, but a setting may not be given
twice. A document may also be an array with the settings in their order;
the ones it does not reach have their defaults.

Numbers have to be integers in range, written without a fraction or an
exponent. Only `default_namespaces` may be null.
-/
import InlineQuery.Config.Basic
import InlineQuery.Json.Reader

namespace InlineQuery

namespace Config

-- ====================================================== values of a setting

/-- A text. -/
def text? : Json → Option Text
  | .string t => t
  | _ => none

/-- A Boolean. -/
def bool? : Json → Option Bool
  | .bool b => some b
  | _ => none

/-- A natural number of at most `bits` binary digits. -/
def nat? (bits : Nat) : Json → Option Nat
  | .integer n => if 0 ≤ n ∧ n.toNat < 1 <<< bits then some n.toNat else none
  | _ => none

/-- The number of a namespace: an integer of 32 binary digits, one of them
for the sign. -/
def namespaceNumber? : Json → Option NamespaceId
  | .integer n => if -0x80000000 ≤ n ∧ n < 0x80000000 then some n else none
  | _ => none

/-- One of several names: a string, or an object that holds null under the
name. -/
def named? {α : Type} (ofName? : Text → Option α) : Json → Option α
  | .string (some t) => ofName? t
  | .object [(some t, .null)] => ofName? t
  | _ => none

/-- A list. -/
def list? {α : Type} (element? : Json → Option α) : Json → Option (List α)
  | .array elements => elements.mapM element?
  | _ => none

/-- The entry of a key, put in its alphabetical place or in the place of an
older entry. -/
def put {α : Type} (key : Text) (value : α) : List (Text × α) → List (Text × α)
  | [] => [(key, value)]
  | entry :: rest =>
    if key = entry.1 then (key, value) :: rest
    else if Text.le key entry.1 then (key, value) :: entry :: rest
    else entry :: put key value rest

/-- A dictionary; of several entries under one key the last one counts. -/
def dictionary? {α : Type} (member? : Json → Option α) : Json → Option (List (Text × α))
  | .object members =>
    members.foldlM (fun entries member => do
      let key ← member.1
      let value ← member? member.2
      return put key value entries) []
  | _ => none

-- ================================================================ documents

/-- The names of the settings, in order. -/
def settingNames : List Text :=
  [ "features".toList, "subcategory_depth".toList, "category_label".toList,
    "concept_label".toList, "namespaces".toList, "default_namespaces".toList,
    "property_types".toList, "strict_comparators".toList, "comparators".toList,
    "capital_links".toList, "max_size".toList, "max_depth".toList ]

/-- The settings that a document gives, by name. -/
def settings? : Json → Option (List (Text × Json))
  | .array elements =>
    if elements.length ≤ settingNames.length then some (settingNames.zip elements) else none
  | .object members => do
    let members ← members.mapM fun member => member.1.map fun key => (key, member.2)
    let known := members.filter fun member => settingNames.contains member.1
    if (known.map Prod.fst).Nodup then some known else none
  | _ => none

/-- The value of a setting: read if it is given, and the default if not. -/
def setting? {α : Type} (settings : List (Text × Json)) (name : String)
    (value? : Json → Option α) (default : α) : Option α :=
  match settings.lookup name.toList with
  | some value => value? value
  | none => some default

/-- The configuration that a JSON value describes. -/
def ofJson? (value : Json) : Option Config := do
  let given ← settings? value
  let standard : Config := {}
  let features ← setting? given "features" (fun v => text? v >>= FeatureSet.read?)
    standard.features
  let subcategoryDepth ← setting? given "subcategory_depth" (nat? 32) standard.subcategoryDepth
  let categoryLabel ← setting? given "category_label" text? standard.categoryLabel
  let conceptLabel ← setting? given "concept_label" text? standard.conceptLabel
  let namespaces ← setting? given "namespaces" (dictionary? namespaceNumber?) standard.namespaces
  let defaultNamespaces ← setting? given "default_namespaces"
    (fun v => match v with
      | .null => some none
      | v => (list? namespaceNumber? v).map some)
    standard.defaultNamespaces
  let propertyTypes ← setting? given "property_types" (dictionary? (named? ValueType.ofName?))
    standard.propertyTypes
  let strictComparators ← setting? given "strict_comparators" bool? standard.strictComparators
  let comparators ← setting? given "comparators" (list? (named? Comparator.ofName?))
    standard.comparators
  let capitalLinks ← setting? given "capital_links" bool? standard.capitalLinks
  let maxSize ← setting? given "max_size" (nat? 64) standard.maxSize
  let maxDepth ← setting? given "max_depth" (nat? 64) standard.maxDepth
  return { features, subcategoryDepth, categoryLabel, conceptLabel, namespaces,
           defaultNamespaces, propertyTypes, strictComparators, comparators, capitalLinks,
           maxSize, maxDepth }

/-- The configuration that a JSON value describes, if it can be used. -/
def ofJson (value : Json) : Except ConfigError Config :=
  match ofJson? value with
  | some config => config.check
  | none => .error .malformed

/-- The configuration that a document describes, if it can be used. -/
def read (document : Text) : Except ConfigError Config :=
  match Json.read? document with
  | some value => ofJson value
  | none => .error .malformed

/-- The configuration with all its settings as JSON. -/
def toJson (config : Config) : Json :=
  .record
    [ ("features".toList, .text config.features.write),
      ("subcategory_depth".toList, .nat config.subcategoryDepth),
      ("category_label".toList, .text config.categoryLabel),
      ("concept_label".toList, .text config.conceptLabel),
      ("namespaces".toList,
        .record (config.namespaces.map fun entry => (entry.1, .integer entry.2))),
      ("default_namespaces".toList,
        match config.defaultNamespaces with
        | some ids => .array (ids.map .integer)
        | none => .null),
      ("property_types".toList,
        .record (config.propertyTypes.map fun entry => (entry.1, .text entry.2.name))),
      ("strict_comparators".toList, .bool config.strictComparators),
      ("comparators".toList, .texts (config.comparators.map Comparator.name)),
      ("capital_links".toList, .bool config.capitalLinks),
      ("max_size".toList, .nat config.maxSize),
      ("max_depth".toList, .nat config.maxDepth) ]

end Config

end InlineQuery
