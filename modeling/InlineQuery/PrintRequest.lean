/-
Print requests: the output columns of a query. A request is written with a
question mark, and may give the column a label of its own:
`?Population = Inhabitants`.
-/
import InlineQuery.Page
import InlineQuery.Property

namespace InlineQuery

/-- What a column shows for each result. -/
inductive PrintMode
  /-- The page itself (`?`). -/
  | thisPage
  /-- All categories of the page (`?Category`). -/
  | categories
  /-- Whether the page is in a category (`?Category:City`). -/
  | inCategory (page : Page)
  /-- The values of a property (`?Population`). -/
  | property (property : Property)
deriving Repr, DecidableEq

/-- What a column shows, in the words of a query: nothing for the page
itself. -/
def PrintMode.target : PrintMode → Text
  | .thisPage => []
  | .categories => "categories".toList
  | .inCategory p => p.fullTitle
  | .property p => p.write

/-- An output column: its label and what it shows. -/
structure PrintRequest where
  label : Text
  mode : PrintMode
deriving Repr, DecidableEq

namespace PrintRequest

/-- The request for categories that `target` makes under one name of the
category namespace: none if it makes none under this name, and `some none`
if the name fits but what follows it is no title. -/
def readCategory? (name target : Text) (label : Option Text) : Option (Option PrintRequest) :=
  if Text.eqIgnoreAsciiCase target name then
    some (some ⟨label.getD name, .categories⟩)
  else match Text.splitOnce? ':' target with
    | none => none
    | some (front, title) =>
      if Text.eqIgnoreAsciiCase (Text.trim front) name then
        some ((normalizeTitle? true title).map fun title =>
          ⟨label.getD title, .inCategory ⟨NamespaceId.category, name, title⟩⟩)
      else none

/-- The request that a text such as `?Population = Inhabitants` makes, given
the names of the category namespace. -/
def read? (categoryNames : List Text) (t : Text) : Option PrintRequest :=
  match Text.trim t with
  | '?' :: body =>
    let (target, label) := match Text.splitOnce? '=' body with
      | some (target, label) => (Text.trim target, some (Text.trim label))
      | none => (Text.trim body, none)
    if target.isEmpty then some ⟨label.getD [], .thisPage⟩
    else match categoryNames.findSome? fun name => readCategory? name target label with
      | some request => request
      | none =>
        (Property.read? true target).map fun property =>
          ⟨label.getD property.label, .property property⟩
  | _ => none

end PrintRequest

end InlineQuery
