/-
The manual: an overview, and a page for each topic.
-/
import InlineQuery.Text.Case.Lower

namespace InlineQuery

/-- A topic of the manual. -/
inductive Topic
  /-- Queries as a whole: adjacency, alternatives, wildcards and labels. -/
  | queries
  /-- Atoms that name categories, concepts, pages and namespaces. -/
  | atoms
  /-- Property conditions, lists of values and chains of properties. -/
  | properties
  /-- Groups and nested conditions. -/
  | subqueries
  /-- The marks in front of a value. -/
  | comparators
  /-- Features and how they are switched off. -/
  | features
  /-- Size, depth and what limits do. -/
  | limits
deriving Repr, DecidableEq

namespace Topic

/-- The topics and the names they go by, the proper name of each first. -/
def index : List (Topic × List Text) :=
  [ (.queries, ["syntax".toList]),
    (.atoms, ["atoms".toList, "atom".toList]),
    (.properties, ["properties".toList, "property".toList, "chains".toList]),
    (.subqueries, ["subqueries".toList, "subquery".toList, "q".toList]),
    (.comparators, ["comparators".toList, "comparator".toList, "cmp".toList]),
    (.features, ["features".toList, "feature".toList]),
    (.limits, ["limits".toList, "pruning".toList, "prune".toList]) ]

/-- The topic of a name, letter case apart; a hyphen stands for an
underscore. -/
def ofName? (name : Text) : Option Topic :=
  let name := Text.replace '-' '_' (Text.lower name)
  (index.find? fun entry => entry.2.contains name).map Prod.fst

/-- The lines of a topic's page. -/
def lines : Topic → List String
  | .queries =>
    [ "SYNTAX",
      "",
      "A query is a sequence of atoms. Each atom is written in double brackets and",
      "states one condition.",
      "",
      "CONJUNCTION",
      "",
      "  [[Category:City]] [[Located in::Germany]]",
      "",
      "  Atoms next to each other must all hold.",
      "",
      "DISJUNCTION",
      "",
      "  [[Category:City]] OR [[Category:Town]]",
      "  [[Category:City]] || [[Category:Town]]",
      "  [[Category:City||Town]]",
      "",
      "  Alternatives, between atoms or inside one atom. OR binds weaker than",
      "  adjacency: [[A]] [[B]] OR [[C]] means (A and B) or C.",
      "",
      "WILDCARD",
      "",
      "  +                 On its own between atoms it is ignored. As a property",
      "                    value it means \"any value\".",
      "",
      "LEGACY LABELS",
      "",
      "  [[Category:City|label]]",
      "",
      "  Text after a single | inside an atom used to set a label. It is skipped",
      "  with a warning." ]
  | .atoms =>
    [ "ATOMS",
      "",
      "CATEGORIES",
      "",
      "  [[Category:City]]",
      "  [[Category:City||Town||Village]]",
      "",
      "  Pages in any of the listed categories. The localized namespace name works",
      "  as well as the canonical \"Category\".",
      "",
      "CONCEPTS",
      "",
      "  [[Concept:Big cities]]",
      "",
      "  Pages selected by the query stored on a concept page. Only one concept per",
      "  atom.",
      "",
      "PAGES",
      "",
      "  [[Berlin]]",
      "  [[Berlin||Paris]]",
      "  [[Help:Contents]]",
      "  [[:Category:City]]",
      "",
      "  Exactly the named pages. A leading colon refers to a page in the category",
      "  namespace instead of its members.",
      "",
      "NAMESPACES",
      "",
      "  [[Help:+]]",
      "  [[:+]]              (main namespace)",
      "  [[:Category:+]]",
      "",
      "  Every page of a namespace." ]
  | .properties =>
    [ "PROPERTIES",
      "",
      "  [[Located in::Germany]]",
      "  [[Located in:=Germany]]",
      "",
      "  Pages whose property has the given value.",
      "",
      "VALUE LISTS",
      "",
      "  [[Located in::Germany||France]]",
      "",
      "  Any of the values.",
      "",
      "WILDCARD",
      "",
      "  [[Located in::+]]",
      "",
      "  Any value at all. For properties holding pages, the value is restricted to",
      "  the default namespaces.",
      "",
      "INVERSE PROPERTIES",
      "",
      "  [[-Located in::Germany]]",
      "",
      "  Pages that are the value of \"Located in\" on page Germany.",
      "",
      "PROPERTY CHAINS",
      "",
      "  [[Located in.Part of::Europe]]",
      "",
      "  Shorthand for [[Located in::<q>[[Part of::Europe]]</q>]]. Every property",
      "  except the last must hold pages. Start the name with a space to use a",
      "  property whose name contains a dot: [[ Version 1.0::yes]].",
      "",
      "VALUE TYPES",
      "",
      "  Properties hold pages unless configured otherwise (\"property_types\" in the",
      "  configuration file: \"number\" or \"text\"). Number values must be decimal",
      "  numbers." ]
  | .subqueries =>
    [ "SUBQUERIES",
      "",
      "GROUPING",
      "",
      "  <q>[[Category:City]] OR [[Category:Town]]</q> [[Located in::Germany]]",
      "",
      "  Groups conditions like parentheses.",
      "",
      "NESTED CONDITIONS",
      "",
      "  [[Located in::<q>[[Category:Country]] [[Member of::EU]]</q>]]",
      "",
      "  The values of a page property must satisfy a whole query. Subqueries are",
      "  not possible for properties that do not hold pages.",
      "",
      "ERRORS",
      "",
      "  A </q> without matching <q>, or a query that ends inside <q>, is reported.",
      "  An empty subquery is dropped." ]
  | .comparators =>
    [ "COMPARATORS",
      "",
      "  Prefix      Meaning",
      "  (none)      equal",
      "  !           not equal",
      "  <<  >>      strictly less / greater",
      "  ≤   ≥       less or equal / greater or equal",
      "  <   >       less or equal / greater or equal, or strict with",
      "              \"strict_comparators\": true",
      "  ~           matches pattern (* and ? wildcards)",
      "  !~          does not match pattern",
      "",
      "EXAMPLES",
      "",
      "  [[Population::>>100000]]",
      "  [[Name::~*burg]]",
      "  [[Status::!closed]]",
      "",
      "The \"comparators\" configuration field lists the prefixes that are recognised;",
      "others are taken as part of the value." ]
  | .features =>
    [ "FEATURES",
      "",
      "Parts of the language can be switched off with the \"features\" configuration",
      "field, a |-separated list of:",
      "",
      "  PROPERTY      property conditions",
      "  CATEGORY      category atoms",
      "  CONCEPT       concept atoms",
      "  NAMESPACE     namespace atoms",
      "  CONJUNCTION   several atoms combined",
      "  DISJUNCTION   OR, || and category lists",
      "",
      "A construct that is not permitted is dropped from the query with a warning.",
      "",
      "EXAMPLE",
      "",
      "  \x7b \"features\": \"PROPERTY | CATEGORY | CONJUNCTION\" \x7d" ]
  | .limits =>
    [ "LIMITS",
      "",
      "SIZE",
      "",
      "  The number of elementary conditions. Every category, concept, page, value",
      "  and namespace counts 1, a property condition counts 1 plus its value.",
      "  With subcategory expansion enabled (\"subcategory_depth\" > 0) a category",
      "  list counts 1 in total.",
      "",
      "DEPTH",
      "",
      "  The nesting of property conditions: [[A.B::x]] has depth 2.",
      "",
      "PRUNING",
      "",
      "  wikiq check --prune --max-size 8 --max-depth 2 \"<query>\"",
      "",
      "  Conditions that exceed the limits are removed and listed as \"pruned\".",
      "  Defaults come from \"max_size\" (12) and \"max_depth\" (4)." ]

end Topic

/-- The lines of the overview. -/
def overviewLines : List String :=
  [ "WIKIQ DOCUMENTATION",
    "",
    "wikiq parses inline wiki queries: rows of [[...]] atoms that describe which",
    "pages a query selects. Atoms next to each other must all hold, atoms joined",
    "by || or OR are alternatives.",
    "",
    "DOCUMENTATION CATEGORIES",
    "",
    "  syntax            Overall structure: atoms, conjunction, disjunction",
    "  atoms             Category, concept, page and namespace atoms",
    "  properties        Property conditions, value lists and property chains",
    "  subqueries        <q>...</q> groups and nested conditions",
    "  comparators       Comparison prefixes for values",
    "  features          Query features and how they are switched off",
    "  limits            Size, depth and pruning",
    "",
    "QUICK REFERENCE",
    "",
    "  [[Category:City]]              Pages in a category",
    "  [[Concept:Big cities]]         Pages selected by a saved query",
    "  [[Located in::Germany]]        Property value",
    "  [[Population::>>1000]]         Comparison",
    "  [[Help:+]]                     Every page of a namespace",
    "  [[A]] OR [[B]]                 Alternatives",
    "  <q>...</q>                     Grouping",
    "",
    "Run 'wikiq doc <category>' for detailed documentation." ]

/-- The text of some lines, each with a line feed behind it. -/
def textOfLines (lines : List String) : Text :=
  lines.flatMap fun line => line.toList ++ ['\n']

/-- The overview of the manual. -/
def overview : Text := textOfLines overviewLines

/-- The page of a topic. -/
def Topic.page (topic : Topic) : Text := textOfLines topic.lines

end InlineQuery
