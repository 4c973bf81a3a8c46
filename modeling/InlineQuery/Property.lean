/-
Properties: the relations between pages and values that a query asks about.
A minus sign in front of a name turns the relation round.
-/
import InlineQuery.Title

namespace InlineQuery

/-- A property; an inverse one relates a value to the pages that have it. -/
structure Property where
  label : Text
  inverse : Bool
deriving Repr, DecidableEq

namespace Property

/-- The property that a text names, with `-` in front of an inverse one. -/
def read? (capital : Bool) (t : Text) : Option Property :=
  match Text.trim t with
  | '-' :: rest => (normalizeTitle? capital rest).map fun label => ⟨label, true⟩
  | name => (normalizeTitle? capital name).map fun label => ⟨label, false⟩

/-- The name as it is written in a query. -/
def write (property : Property) : Text :=
  if property.inverse then '-' :: property.label else property.label

end Property

end InlineQuery
