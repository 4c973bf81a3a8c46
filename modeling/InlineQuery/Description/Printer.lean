/-
Descriptions written as queries.

Three positions call for three forms. On its own a condition is a row of
atoms, `[[Paris]]`. As the value of a property it is the bare value, `Paris`
in `[[Located in::Paris]]`, and a condition that has no such form is wrapped
in `<q>…</q>`. Directly inside an atom that is still open, a further
property condition extends the chain of names, `[[Located in.Part of::…]]`,
and anything else is the value after `::`.

A name that contains a dot cannot be part of a chain. It stands in an atom
of its own, behind a space that tells readers not to split it.
-/
import InlineQuery.Description.Basic

namespace InlineQuery

/-- The place a description is written in. -/
inductive Position
  /-- On its own, as a query. -/
  | alone
  /-- As the value of a property. -/
  | value
  /-- After the name of a property in an atom that is still open. -/
  | chain
deriving Repr, DecidableEq

namespace Position

/-- A condition that has no value form of its own, from its atoms. -/
def wrap : Position → Text → Text
  | .alone, atoms => atoms
  | .value, atoms => " <q>".toList ++ atoms ++ "</q> ".toList
  | .chain, atoms => ":: <q>".toList ++ atoms ++ "</q> ".toList

/-- A condition that is met by every page. -/
def anything : Position → Text
  | .alone => []
  | .value => ['+']
  | .chain => [':', ':', '+']

/-- A text that is the same in every position, set off from a property's
name by `::`. -/
def plain : Position → Text → Text
  | .chain, t => ':' :: ':' :: t
  | _, t => t

end Position

namespace Description

/-- The name contains a dot, and so cannot be part of a chain. -/
def isDotted (name : Text) : Bool := name.contains '.'

/-- A comparison with an item: an atom on its own, or the bare value. The
colon keeps `[[:Category:City]]` the page of that name and not the members
of the category. -/
def writeValue (position : Position) (item : Item) (comparator : Comparator) : Text :=
  let symbol := comparator.symbol
  match position with
  | .alone =>
    if symbol.isEmpty then "[[:".toList ++ item.write ++ "]]".toList
    else "[[".toList ++ symbol ++ item.write ++ "]]".toList
  | .value => symbol ++ item.write
  | .chain => ':' :: ':' :: symbol ++ item.write

/-- The atom of a category list; the name of the namespace is written once,
in front. -/
def writeCategories (pages : List Page) : Text :=
  let titles := match pages with
    | [] => []
    | page :: rest => page.fullTitle :: rest.map Page.title
  "[[".toList ++ Text.join "||".toList titles ++ "]]".toList

/-- The atom of a namespace. A colon keeps the category namespace from being
read as a category list. -/
def writeNamespace (id : NamespaceId) (label : Text) : Text :=
  let colon := if id = NamespaceId.category then [':'] else []
  "[[".toList ++ colon ++ label ++ ":+]]".toList

mutual

/-- The description as it is written in the given position. -/
def writeAt (position : Position) : Description → Text
  | .thing _ => position.anything
  | .value item _ comparator _ => writeValue position item comparator
  | .categories pages _ _ => position.wrap (writeCategories pages)
  | .inNamespace id label _ => position.wrap (writeNamespace id label)
  | .concept page _ => position.wrap ("[[".toList ++ page.fullTitle ++ "]]".toList)
  | .someProperty property inner _ =>
    let name := property.write
    let content :=
      if isDotted name then ' ' :: name ++ ':' :: ':' :: writeAt .value inner
      else name ++ writeAt .chain inner
    let atom := "[[".toList ++ content ++ "]]".toList
    match position with
    | .alone => atom
    | .value => "<q>".toList ++ atom ++ "</q>".toList
    | .chain =>
      if isDotted name then "::<q>".toList ++ atom ++ "</q>".toList else '.' :: content
  | .conjunction children _ =>
    let parts := (writeAll children).filter fun part => !part.isEmpty
    if parts.isEmpty then position.anything
    else position.wrap (Text.join [' '] parts)
  | .disjunction children _ always _ =>
    if always then position.plain ['+']
    else match position with
      | .alone =>
        " <q>".toList ++ Text.join " OR ".toList (writeGroups children) ++ "</q> ".toList
      | _ => position.plain (Text.join "||".toList (writeValues children))

/-- The descriptions, each on its own. -/
def writeAll : List Description → List Text
  | [] => []
  | child :: rest => writeAt .alone child :: writeAll rest

/-- The descriptions as alternatives between atoms. A property condition is
grouped, so that it stays one alternative. -/
def writeGroups : List Description → List Text
  | [] => []
  | child :: rest =>
    let part :=
      if child.isSomeProperty then " <q>".toList ++ writeAt .alone child ++ "</q> ".toList
      else writeAt .alone child
    part :: writeGroups rest

/-- The descriptions as alternative values of a property. -/
def writeValues : List Description → List Text
  | [] => []
  | child :: rest => writeAt .value child :: writeValues rest

end

/-- The description as a query. -/
def write (d : Description) : Text := writeAt .alone d

end Description

end InlineQuery
