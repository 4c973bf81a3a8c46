/-
Items: the values that a query compares with. The type of a property
decides how the text of a value is read.
-/
import InlineQuery.Decimal
import InlineQuery.Page

namespace InlineQuery

/-- What kind of values a property has. Only pages have properties of their
own, so only they can be asked about in a nested query. -/
inductive ValueType
  | page
  | number
  | text
deriving Repr, DecidableEq

/-- A value: a page, a number or a text. -/
inductive Item
  | page (page : Page)
  | number (number : Decimal)
  | text (text : Text)
deriving Repr, DecidableEq

/-- The name of a value type. -/
def ValueType.name : ValueType → Text
  | .page => "page".toList
  | .number => "number".toList
  | .text => "text".toList

/-- The value types, under their names. -/
def ValueType.ofName? (name : Text) : Option ValueType :=
  [.page, .number, .text].find? fun valueType => valueType.name == name

namespace Item

/-- The value as it is written in a query. -/
def write : Item → Text
  | .page p => p.fullTitle
  | .number n => n.write
  | .text t => t

/-- The type of a value. -/
def valueType : Item → ValueType
  | .page _ => .page
  | .number _ => .number
  | .text _ => .text

end Item

end InlineQuery
