/-
Writing JSON, on one line or indented by two spaces a level.

The members of an object are written in the order of their keys, so that
equal values have one text. Only quotes, backslashes and control characters
are escaped.
-/
import InlineQuery.Json.Basic

namespace InlineQuery

namespace Json

-- ================================================================ strings

/-- A control character as an escape, by its letter if it has one. -/
def writeControl (c : Char) : Text :=
  if c = '\n' then ['\\', 'n']
  else if c = '\r' then ['\\', 'r']
  else if c = '\t' then ['\\', 't']
  else if c = '\x08' then ['\\', 'b']
  else if c = '\x0c' then ['\\', 'f']
  else
    let digits := Text.hex c.toNat
    ['\\', 'u'] ++ List.replicate (4 - digits.length) '0' ++ digits

/-- A character as it stands in a string. -/
def writeChar (c : Char) : Text :=
  if c = '"' then ['\\', '"']
  else if c = '\\' then ['\\', '\\']
  else if c.toNat < 0x20 then writeControl c
  else [c]

/-- A string with its quotes. -/
def writeText (t : Text) : Text := '"' :: t.flatMap writeChar ++ ['"']

-- ============================================================ member order

/-- Written members in the order of their keys. -/
def sortMembers (members : List (Text × Text)) : List (Text × Text) :=
  members.mergeSort fun a b => Text.le a.1 b.1

-- ================================================================= layouts

/-- How a value is laid out: on one line, or indented, given the depth of
the value in the document. -/
inductive Layout
  | compact
  | indented (depth : Nat)

namespace Layout

/-- The layout of what is inside the value. -/
def inner : Layout → Layout
  | .compact => .compact
  | .indented depth => .indented (depth + 1)

/-- What stands in front of an element, or of a closing bracket. -/
def newline : Layout → Text
  | .compact => []
  | .indented depth => '\n' :: List.replicate (2 * depth) ' '

/-- What stands between a key and its value. -/
def colon : Layout → Text
  | .compact => [':']
  | .indented _ => [':', ' ']

/-- Written parts between brackets; there is nothing between the brackets
of an empty list. -/
def bracket (layout : Layout) (opening closing : Char) (parts : List Text) : Text :=
  if parts.isEmpty then [opening, closing]
  else
    let separated := Text.join [','] (parts.map (layout.inner.newline ++ ·))
    opening :: separated ++ layout.newline ++ [closing]

end Layout

mutual

/-- The value in the given layout. -/
def writeIn (layout : Layout) : Json → Text
  | .null => "null".toList
  | .bool true => "true".toList
  | .bool false => "false".toList
  | .integer n => Text.ofInt n
  | .real literal => literal
  | .string t => writeText (t.getD [])
  | .array elements => layout.bracket '[' ']' (writeElements layout.inner elements)
  | .object members =>
    let written := sortMembers (writeMembers layout.inner members)
    layout.bracket '{' '}' (written.map fun member =>
      writeText member.1 ++ layout.colon ++ member.2)

/-- The values, each in the given layout. -/
def writeElements (layout : Layout) : List Json → List Text
  | [] => []
  | element :: rest => writeIn layout element :: writeElements layout rest

/-- The keys, and their values in the given layout. -/
def writeMembers (layout : Layout) : List (Option Text × Json) → List (Text × Text)
  | [] => []
  | (key, value) :: rest => (key.getD [], writeIn layout value) :: writeMembers layout rest

end

/-- The value on one line. -/
def write (value : Json) : Text := writeIn .compact value

/-- The value with one element or member to a line. -/
def writePretty (value : Json) : Text := writeIn (.indented 0) value

end Json

end InlineQuery
