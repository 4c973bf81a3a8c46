/-
Comparators: the relation that a value condition asks for, written as a
short mark in front of the value. Marks may be the beginning of one another
(`!` of `!~`, `<` of `<<`), so the longer ones are tried first.
-/
import InlineQuery.Text.Basic

namespace InlineQuery

/-- How the values of a page are compared with the value of a condition. -/
inductive Comparator
  | equal
  | notEqual
  | less
  | greater
  | lessEqual
  | greaterEqual
  | like
  | notLike
deriving Repr, DecidableEq

namespace Comparator

/-- Every comparator. -/
def all : List Comparator :=
  [.equal, .notEqual, .less, .greater, .lessEqual, .greaterEqual, .like, .notLike]

/-- The name of a comparator in configurations and reports. -/
def name : Comparator → Text
  | .equal => "equal".toList
  | .notEqual => "not_equal".toList
  | .less => "less".toList
  | .greater => "greater".toList
  | .lessEqual => "less_equal".toList
  | .greaterEqual => "greater_equal".toList
  | .like => "like".toList
  | .notLike => "not_like".toList

/-- The comparator of a name. -/
def ofName? (t : Text) : Option Comparator :=
  all.find? fun comparator => comparator.name == t

/-- The mark that is written in front of a value. -/
def symbol : Comparator → Text
  | .equal => []
  | .notEqual => ['!']
  | .less => ['<', '<']
  | .greater => ['>', '>']
  | .lessEqual => ['≤']
  | .greaterEqual => ['≥']
  | .like => ['~']
  | .notLike => ['!', '~']

/-- The marks that are read, longer ones first. A bare `<` or `>` excludes
the value itself if `strict`, and includes it otherwise. -/
def marks (strict : Bool) : List (Text × Comparator) :=
  [ (['!', '~'], .notLike),
    (['<', '<'], .less),
    (['>', '>'], .greater),
    (['≤'], .lessEqual),
    (['≥'], .greaterEqual),
    (['<'], if strict then .less else .lessEqual),
    (['>'], if strict then .greater else .greaterEqual),
    (['!'], .notEqual),
    (['~'], .like) ]

/-- The first mark whose comparator is allowed and that the value starts
with, and what follows it. A value without such a mark is compared for
equality as it stands. -/
def split (strict : Bool) (allowed : List Comparator) (value : Text) : Comparator × Text :=
  let found := (marks strict).findSome? fun mark =>
    if allowed.contains mark.2 then
      (Text.stripFront? mark.1 value).map fun rest => (mark.2, rest)
    else none
  found.getD (.equal, value)

end Comparator

end InlineQuery
