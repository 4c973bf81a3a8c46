/-
Namespaces: a wiki divides its pages into namespaces, each with a number
and at least one name. The twelve below are known to every wiki by their
canonical English names; a configuration may rename two of them and add
more.
-/
import InlineQuery.Text.Basic

namespace InlineQuery

/-- The number of a namespace. -/
abbrev NamespaceId := Int

namespace NamespaceId

/-- Articles, the namespace without a name. -/
def main : NamespaceId := 0

/-- Category pages. -/
def category : NamespaceId := 14

/-- Concept pages, which hold saved queries. -/
def concept : NamespaceId := 108

end NamespaceId

/-- The canonical name of the category namespace. -/
def categoryName : Text := "Category".toList

/-- The canonical name of the concept namespace. -/
def conceptName : Text := "Concept".toList

/-- The canonical names and their numbers. -/
def canonicalNamespaces : List (Text × NamespaceId) :=
  [ ([], NamespaceId.main),
    ("Talk".toList, 1),
    ("User".toList, 2),
    ("User talk".toList, 3),
    ("Project".toList, 4),
    ("File".toList, 6),
    ("MediaWiki".toList, 8),
    ("Template".toList, 10),
    ("Help".toList, 12),
    (categoryName, NamespaceId.category),
    ("Property".toList, 102),
    (conceptName, NamespaceId.concept) ]

end InlineQuery
