/-
Configurations: what a reader has to know about the wiki it reads for. That
is the features the wiki permits, the names of its namespaces, the types of
its properties, and how far queries are to be cut down.

Namespace names are looked up without regard to ASCII case, the configured
names of the category and concept namespaces first, then the additional
names in the order of the alphabet, then the canonical ones.
-/
import InlineQuery.Comparator
import InlineQuery.Feature
import InlineQuery.Item
import InlineQuery.Property
import InlineQuery.Chunk.Delimiter

namespace InlineQuery

/-- The settings of a wiki. -/
structure Config where
  /-- The permitted features. -/
  features : FeatureSet := .all
  /-- How deep the category hierarchy is expanded; above zero, every
  category list stands for its whole hierarchy. -/
  subcategoryDepth : Nat := 10
  /-- The name of the category namespace on this wiki. -/
  categoryLabel : Text := categoryName
  /-- The name of the concept namespace on this wiki. -/
  conceptLabel : Text := conceptName
  /-- Additional namespace names, in alphabetical order. -/
  namespaces : List (Text × NamespaceId) := []
  /-- The namespaces that a query is restricted to if it names none. -/
  defaultNamespaces : Option (List NamespaceId) := none
  /-- The types of properties by label; the values of others are pages. -/
  propertyTypes : List (Text × ValueType) := []
  /-- A bare `<` or `>` excludes the value itself. -/
  strictComparators : Bool := false
  /-- The comparators that are recognized in front of a value. -/
  comparators : List Comparator := Comparator.all
  /-- Titles start with a capital letter. -/
  capitalLinks : Bool := true
  /-- The size that queries are cut down to. -/
  maxSize : Nat := 12
  /-- The depth that queries are cut down to. -/
  maxDepth : Nat := 4
deriving Repr, DecidableEq

/-- Why a configuration cannot be used. -/
inductive ConfigError
  /-- The document is not JSON, or a member has a wrong type or value. -/
  | malformed
  /-- The category label is blank. -/
  | emptyCategoryLabel
  /-- The concept label is blank. -/
  | emptyConceptLabel
deriving Repr, DecidableEq

/-- What is wrong, in English. -/
def ConfigError.message : ConfigError → Text
  | .malformed => "invalid config".toList
  | .emptyCategoryLabel => "the category namespace label must not be empty".toList
  | .emptyConceptLabel => "the concept namespace label must not be empty".toList

namespace Config

/-- A configuration whose labels can be told from no label. -/
def check (config : Config) : Except ConfigError Config :=
  if Text.isBlankText config.categoryLabel then .error .emptyCategoryLabel
  else if Text.isBlankText config.conceptLabel then .error .emptyConceptLabel
  else .ok config

/-- The labels that reading cuts query text at. -/
def labels (config : Config) : ClassLabels := ⟨config.categoryLabel, config.conceptLabel⟩

/-- Category lists stand for the whole hierarchy below their categories. -/
def expandsHierarchy (config : Config) : Bool := config.subcategoryDepth > 0

/-- A label and the canonical name beside it, unless they are the same. -/
def spellings (label canonical : Text) : List Text :=
  if Text.eqIgnoreAsciiCase label canonical then [label] else [label, canonical]

/-- The names of the category namespace, the local one first. -/
def categoryNames (config : Config) : List Text :=
  spellings config.categoryLabel categoryName

/-- The names of the concept namespace, the local one first. -/
def conceptNames (config : Config) : List Text :=
  spellings config.conceptLabel conceptName

/-- The namespace of a name as it is written in a query. The main namespace
has no name, or is called `Main`. -/
def namespaceId? (config : Config) (name : Text) : Option NamespaceId :=
  let name := Text.replace '_' ' ' (Text.trim name)
  let named (entry : Text × NamespaceId) : Bool := Text.eqIgnoreAsciiCase entry.1 name
  ((config.categoryLabel, NamespaceId.category) :: (config.conceptLabel, NamespaceId.concept) ::
    ("Main".toList, NamespaceId.main) :: config.namespaces ++ canonicalNamespaces).findSome?
    fun entry => if named entry then some entry.2 else none

/-- The name that a namespace is written with. -/
def namespaceName? (config : Config) (id : NamespaceId) : Option Text :=
  ((config.categoryLabel, NamespaceId.category) :: (config.conceptLabel, NamespaceId.concept) ::
    config.namespaces ++ canonicalNamespaces).findSome?
    fun entry => if entry.2 = id then some entry.1 else none

/-- The type of a property's values. The values of an inverse property are
pages. -/
def valueType (config : Config) (property : Property) : ValueType :=
  if property.inverse then .page
  else ((config.propertyTypes.lookup property.label).getD .page)

end Config

end InlineQuery
