/-
The kinds of chunks. A reader cuts query text into chunks and decides by
their kind what to do next. `<q>` and `</q>` are written in either case,
`OR` in capitals only.
-/
import InlineQuery.Text.Basic

namespace InlineQuery

/-- What a chunk of query text is. -/
inductive Token
  /-- `[[`, which opens an atom. -/
  | openAtom
  /-- `]]`, which closes one. -/
  | closeAtom
  /-- `::` or `:=`, between a property and its values. -/
  | separator
  /-- `<q>`, which opens a subquery. -/
  | openQuery
  /-- `</q>`, which closes one. -/
  | closeQuery
  /-- `||`, between alternatives inside an atom or between atoms. -/
  | bars
  /-- The word `OR`, between alternatives. -/
  | orWord
  /-- `|`, in front of a label. -/
  | bar
  /-- `+`, which stands for any value. -/
  | wildcard
  /-- No chunk: nothing is left to read. -/
  | finish
  /-- Any other text: titles, values, the names of namespaces. -/
  | text
deriving Repr, DecidableEq

namespace Token

/-- The kind of a chunk. -/
def ofChunk (chunk : Text) : Token :=
  if chunk = [] then .finish
  else if chunk = ['[', '['] then .openAtom
  else if chunk = [']', ']'] then .closeAtom
  else if chunk = [':', ':'] ∨ chunk = [':', '='] then .separator
  else if chunk = ['|', '|'] then .bars
  else if chunk = ['|'] then .bar
  else if chunk = ['+'] then .wildcard
  else if chunk = ['O', 'R'] then .orWord
  else if chunk.map Char.toLower = ['<', 'q', '>'] then .openQuery
  else if chunk.map Char.toLower = ['<', '/', 'q', '>'] then .closeQuery
  else .text

/-- The chunk is one of the fixed delimiters, or there is none. -/
def isDelimiter : Token → Bool
  | .text => false
  | .wildcard => false
  | .orWord => false
  | _ => true

/-- A chunk of any kind but `finish` is not empty. -/
theorem ne_nil_of_ofChunk {chunk : Text} {token : Token} (h : ofChunk chunk = token)
    (hne : token ≠ .finish) : chunk ≠ [] := by
  rintro rfl
  exact hne h.symm

end Token

end InlineQuery
