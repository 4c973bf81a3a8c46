/-
Pages of the wiki. A page carries the name of its namespace along with the
number, so that it can be written without knowing the wiki's names.
-/
import InlineQuery.Namespace
import InlineQuery.Title

namespace InlineQuery

/-- A page: its namespace, the name that namespace is written with, and its
title. -/
structure Page where
  namespaceId : NamespaceId
  namespaceName : Text
  title : Text
deriving Repr, DecidableEq

namespace Page

/-- A page of the main namespace. -/
def main (title : Text) : Page := ⟨NamespaceId.main, [], title⟩

/-- A page of the category namespace, under its canonical name. -/
def category (title : Text) : Page := ⟨NamespaceId.category, categoryName, title⟩

/-- A page of the concept namespace, under its canonical name. -/
def concept (title : Text) : Page := ⟨NamespaceId.concept, conceptName, title⟩

/-- The title with the name of the namespace in front, as in
`Category:City`. -/
def fullTitle (page : Page) : Text :=
  if page.namespaceName.isEmpty then page.title
  else page.namespaceName ++ ':' :: page.title

end Page

end InlineQuery
