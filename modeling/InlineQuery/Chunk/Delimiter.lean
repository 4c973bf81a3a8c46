/-
Delimiters: the strings at which query text is cut.

Blanks in front of a delimiter belong to it. The first delimiter of a text
is the one that starts earliest, its blanks included; of those that start at
the same place the one listed first counts, which is why `||` is listed
before `|`.

The name of the category or concept namespace with a colon behind it is a
delimiter too, but only where the text starts: behind a blank it is not.
-/
import InlineQuery.Namespace
import InlineQuery.Text.Blank
import InlineQuery.Text.Case.Fold

namespace InlineQuery

/-- The names that the category and concept namespaces have on this wiki, in
addition to their canonical ones. -/
structure ClassLabels where
  category : Text
  concept : Text
deriving Repr, DecidableEq

/-- Which delimiters end a chunk. -/
inductive StopSet
  /-- All of them. -/
  | all
  /-- Only `]]`: used to get past the rest of a broken atom. -/
  | closingBrackets
  /-- `[[`, `]]`, `||` and `|`: used inside a value. -/
  | atomContent
deriving Repr, DecidableEq

/-- A text that starts with `pattern`, letter case apart, cut behind it. -/
def matchFront? (pattern t : Text) : Option (Text × Text) :=
  match pattern, t with
  | [], t => some ([], t)
  | _ :: _, [] => none
  | c :: pattern, d :: t =>
    if sameFold c d then (matchFront? pattern t).map fun parts => (d :: parts.1, parts.2)
    else none

/-- The first of the delimiters that the text starts with, and what follows
it. -/
def firstDelimiter? (delimiters : List Text) (t : Text) : Option (Text × Text) :=
  delimiters.findSome? fun delimiter => matchFront? delimiter t

theorem append_of_matchFront? {pattern t : Text} {parts : Text × Text}
    (h : matchFront? pattern t = some parts) : t = parts.1 ++ parts.2 := by
  induction pattern generalizing t parts with
  | nil => simp [matchFront?] at h; simp [← h]
  | cons c pattern ih =>
    cases t with
    | nil => simp [matchFront?] at h
    | cons d t =>
      simp only [matchFront?] at h
      split at h
      · obtain ⟨rest, hrest, rfl⟩ := Option.map_eq_some_iff.1 h
        simp [← ih hrest]
      · cases h

theorem length_of_matchFront? {pattern t : Text} {parts : Text × Text}
    (h : matchFront? pattern t = some parts) : parts.1.length = pattern.length := by
  induction pattern generalizing t parts with
  | nil => simp [matchFront?] at h; simp [← h]
  | cons c pattern ih =>
    cases t with
    | nil => simp [matchFront?] at h
    | cons d t =>
      simp only [matchFront?] at h
      split at h
      · obtain ⟨rest, hrest, rfl⟩ := Option.map_eq_some_iff.1 h
        simp [ih hrest]
      · cases h

/-- A delimiter that is not empty takes something off the text. -/
theorem firstDelimiter?_length_lt {delimiters : List Text} {t : Text} {parts : Text × Text}
    (hne : ∀ delimiter ∈ delimiters, delimiter ≠ [])
    (h : firstDelimiter? delimiters t = some parts) : parts.2.length < t.length := by
  obtain ⟨pattern, hmem, hp⟩ := List.exists_of_findSome?_eq_some h
  have happ := congrArg List.length (append_of_matchFront? hp)
  have hlen := length_of_matchFront? hp
  have hpos := List.length_pos_iff.2 (hne pattern hmem)
  rw [List.length_append] at happ
  omega

theorem append_of_firstDelimiter? {delimiters : List Text} {t : Text} {parts : Text × Text}
    (h : firstDelimiter? delimiters t = some parts) : t = parts.1 ++ parts.2 := by
  obtain ⟨pattern, -, hp⟩ := List.exists_of_findSome?_eq_some h
  exact append_of_matchFront? hp

namespace StopSet

/-- The delimiters that count at any place, in order of preference. -/
def marks : StopSet → List Text
  | .all => [ ['[', '['], [']', ']'], [':', ':'], [':', '='], ['<', 'q', '>'],
      ['<', '/', 'q', '>'] ]
  | .closingBrackets => [[']', ']']]
  | .atomContent => [ ['[', '['], [']', ']'] ]

/-- The delimiters that count at the very start of a text. -/
def leadingMarks (labels : ClassLabels) : StopSet → List Text
  | .all =>
    [labels.category, categoryName, labels.concept, conceptName].map fun name => name ++ [':']
  | _ => []

/-- The delimiters made of bars, which come last. -/
def bars : StopSet → List Text
  | .closingBrackets => []
  | _ => [['|', '|'], ['|']]

/-- The delimiter that the text starts with, blanks apart: `start` tells
that this is the very start of what is to be read. -/
def delimiter? (labels : ClassLabels) (stop : StopSet) (start : Bool) (t : Text) :
    Option (Text × Text) :=
  let body := Text.trimFront t
  let leading := stop.leadingMarks labels
  if start && body.length == t.length then
    firstDelimiter? (stop.marks ++ leading ++ stop.bars) t
  else
    match firstDelimiter? (stop.marks ++ stop.bars) body with
    | some found => some found
    | none => if start then firstDelimiter? leading t else none

/-- The text in front of the first delimiter, and the text from that
delimiter on, without the blanks in front of it. -/
def splitBefore (labels : ClassLabels) (stop : StopSet) : Text → Text × Text
  | [] => ([], [])
  | c :: t =>
    match stop.delimiter? labels false (c :: t) with
    | some _ => ([], Text.trimFront (c :: t))
    | none =>
      let parts := stop.splitBefore labels t
      (c :: parts.1, parts.2)

end StopSet

end InlineQuery
