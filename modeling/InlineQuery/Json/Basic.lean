/-
JSON values.

Two things are kept that a plain value type would lose, because the format
of a configuration depends on them. A number remembers whether it was
written as an integer; `1.0` is not one. And a string may be written with
escapes that denote no character (half of a surrogate pair): it is part of a
well-formed document, but it is not a text.
-/
import InlineQuery.Text.Basic

namespace InlineQuery

/-- A JSON value. -/
inductive Json
  | null
  | bool (value : Bool)
  /-- An integer literal. -/
  | integer (value : Int)
  /-- A number with a fraction or an exponent, or minus zero, as written. -/
  | real (literal : Text)
  /-- A string; none if its escapes denote no text. -/
  | string (text : Option Text)
  | array (elements : List Json)
  /-- An object: its members in the order they were written, repetitions
  included. -/
  | object (members : List (Option Text × Json))
deriving Inhabited

namespace Json

/-- A string that is a text. -/
def text (t : Text) : Json := .string (some t)

/-- A natural number. -/
def nat (n : Nat) : Json := .integer n

/-- A list of texts. -/
def texts (ts : List Text) : Json := .array (ts.map text)

/-- An object whose keys are texts. -/
def record (members : List (Text × Json)) : Json :=
  .object (members.map fun member => (some member.1, member.2))

/-- The last member under a key. -/
def member? (key : Text) (value : Json) : Option Json :=
  match value with
  | .object members => (members.findRev? fun entry => entry.1 == some key).map Prod.snd
  | _ => none

end Json

end InlineQuery
