/-
Case mappings come in long regular runs: neighbouring letters, or every
second one, are mapped by adding the same number to the code point. A table
of such runs is how the mappings of the Unicode character database are
written down here.
-/
import InlineQuery.Text.Basic

namespace InlineQuery

/-- A run of code points, from `first` to `last` in steps of `stride`, that
are all mapped by adding `offset`. -/
structure CaseRun where
  first : Nat
  last : Nat
  stride : Nat
  offset : Int
deriving Repr, DecidableEq

namespace CaseRun

/-- The code point belongs to the run. -/
def covers (run : CaseRun) (code : Nat) : Bool :=
  run.first ≤ code && code ≤ run.last && (code - run.first) % run.stride == 0

/-- Where the run sends a code point that belongs to it. -/
def image (run : CaseRun) (code : Nat) : Nat :=
  (code + run.offset).toNat

/-- What the first run that covers the code point makes of it; a code point
that no run covers is left alone. -/
def mapCode (runs : List CaseRun) (code : Nat) : Nat :=
  match runs.find? fun run => run.covers code with
  | some run => run.image code
  | none => code

/-- A code point that no run covers is its own image. -/
theorem mapCode_of_find?_eq_none {runs : List CaseRun} {code : Nat}
    (h : (runs.find? fun run => run.covers code) = none) : mapCode runs code = code := by
  simp [mapCode, h]

end CaseRun

/-- The code point lies in one of the ranges, each given by its first and
last code point. -/
def inRanges (ranges : List (Nat × Nat)) (code : Nat) : Bool :=
  ranges.any fun range => range.1 ≤ code && code ≤ range.2

end InlineQuery
