/-
Titles: the names of pages and of properties.

A title is written in many ways: underscores stand for spaces, runs of
blanks count as one space, and the first letter may be small where the wiki
capitalizes it. `normalizeTitle?` finds the one canonical spelling, and
refuses text that no page can be called.
-/
import InlineQuery.Text.Blank
import InlineQuery.Text.Case.Upper

namespace InlineQuery

/-- The characters of the link syntax, which no title contains. -/
def titleForbidden : List Char := ['[', ']', '{', '}', '|', '#', '<', '>']

/-- Underscores become spaces, and each run of blanks a single space. -/
def spaceTitle (t : Text) : Text :=
  Text.join [' '] (Text.words (Text.replace '_' ' ' t))

/-- The first character in upper case. -/
def capitalize : Text → Text
  | [] => []
  | c :: t => upperCase c ++ t

/-- The canonical spelling of a title; none for text that is empty or
contains a character of the link syntax. -/
def normalizeTitle? (capital : Bool) (t : Text) : Option Text :=
  let spaced := spaceTitle t
  if spaced.isEmpty || spaced.any fun c => titleForbidden.contains c then none
  else some (if capital then capitalize spaced else spaced)

end InlineQuery
