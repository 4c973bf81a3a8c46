/-
Chunks: the pieces that query text is cut into.

Each cut takes either the delimiter that the text starts with, or the text
up to the next delimiter, or, if there is none, all of it. Nothing but
blanks is lost on the way, and as long as there is text a cut takes at least
one character (`cut_length_lt`), so reading comes to an end.
-/
import InlineQuery.Chunk.Delimiter

namespace InlineQuery

/-- A chunk cut off the front of a text, and the rest of the text. -/
structure Cut where
  chunk : Text
  rest : Text
deriving Repr, DecidableEq

namespace Cut

/-- The chunk without blanks at its ends. -/
def trimmed (c : Cut) : Cut := { c with chunk := Text.trim c.chunk }

end Cut

namespace StopSet

/-- One cut of a text, at the delimiters of the stop set. -/
def cut (labels : ClassLabels) (stop : StopSet) (t : Text) : Cut :=
  match stop.delimiter? labels true t with
  | some (delimiter, rest) => ⟨delimiter, rest⟩
  | none =>
    let parts := stop.splitBefore labels t
    ⟨parts.1, parts.2⟩

-- ============================================================ cuts advance

theorem marks_ne_nil {stop : StopSet} {mark : Text} (h : mark ∈ stop.marks ++ stop.bars) :
    mark ≠ [] := by
  rintro rfl
  cases stop <;> simp [marks, bars] at h

theorem leadingMarks_ne_nil {labels : ClassLabels} {stop : StopSet} {mark : Text}
    (h : mark ∈ stop.leadingMarks labels) : mark ≠ [] := by
  rintro rfl
  cases stop <;> simp [leadingMarks] at h

theorem delimiter?_length_lt {labels : ClassLabels} {stop : StopSet} {start : Bool} {t : Text}
    {parts : Text × Text} (h : stop.delimiter? labels start t = some parts) :
    parts.2.length < t.length := by
  have hbody := Text.trimFront_length_le t
  simp only [delimiter?] at h
  split at h
  · refine firstDelimiter?_length_lt (fun mark hmark => ?_) h
    rw [List.append_assoc, List.mem_append, List.mem_append] at hmark
    rcases hmark with hmark | hmark | hmark
    · exact marks_ne_nil (List.mem_append_left _ hmark)
    · exact leadingMarks_ne_nil hmark
    · exact marks_ne_nil (List.mem_append_right _ hmark)
  · split at h
    · next found hfound =>
      cases h
      have := firstDelimiter?_length_lt (fun _ => marks_ne_nil) hfound
      omega
    · split at h
      · exact firstDelimiter?_length_lt (fun _ => leadingMarks_ne_nil) h
      · cases h

/-- A delimiter that counts anywhere also counts at the start of a text. -/
theorem delimiter?_start {labels : ClassLabels} {stop : StopSet} {t : Text}
    (h : stop.delimiter? labels true t = none) : stop.delimiter? labels false t = none := by
  simp only [delimiter?, Bool.true_and, if_true, Bool.false_and, Bool.false_eq_true, if_false]
    at h ⊢
  have key : firstDelimiter? (stop.marks ++ stop.bars) (Text.trimFront t) = none := by
    split at h
    · next hlen =>
      have heq : Text.trimFront t = t :=
        (List.dropWhile_suffix isBlank).eq_of_length (eq_of_beq hlen)
      rw [heq]
      simp only [firstDelimiter?, List.findSome?_eq_none_iff, List.mem_append] at h ⊢
      intro mark hmark
      refine h mark ?_
      rcases hmark with hmark | hmark
      · exact Or.inl (Or.inl hmark)
      · exact Or.inr hmark
    · split at h
      · cases h
      · next hnone => exact hnone
  rw [key]

theorem splitBefore_length_le (labels : ClassLabels) (stop : StopSet) (t : Text) :
    (stop.splitBefore labels t).2.length ≤ t.length := by
  induction t with
  | nil => simp [splitBefore]
  | cons c t ih =>
    rw [splitBefore]
    split
    · exact Text.trimFront_length_le _
    · simp only [List.length_cons]
      omega

theorem cut_nil (labels : ClassLabels) (stop : StopSet) : stop.cut labels [] = ⟨[], []⟩ := by
  rw [cut]
  split
  · next delimiter rest h => exact absurd (delimiter?_length_lt h) (Nat.not_lt_zero _)
  · rfl

/-- A cut of a text that is not empty takes something off it. -/
theorem cut_length_lt (labels : ClassLabels) (stop : StopSet) {t : Text} (h : t ≠ []) :
    (stop.cut labels t).rest.length < t.length := by
  rw [cut]
  split
  · next delimiter rest hd => exact delimiter?_length_lt hd
  · next hd =>
    cases t with
    | nil => exact absurd rfl h
    | cons c t =>
      rw [splitBefore, delimiter?_start hd]
      have := splitBefore_length_le labels stop t
      simp only [List.length_cons]
      omega

theorem cut_length_le (labels : ClassLabels) (stop : StopSet) (t : Text) :
    (stop.cut labels t).rest.length ≤ t.length := by
  cases t with
  | nil => exact Nat.le_of_eq (by rw [cut_nil])
  | cons c t => exact Nat.le_of_lt (cut_length_lt labels stop (List.cons_ne_nil c t))

/-- A cut that yields a chunk takes something off the text. -/
theorem cut_length_lt_of_chunk {labels : ClassLabels} {stop : StopSet} {t : Text}
    (h : (stop.cut labels t).chunk ≠ []) : (stop.cut labels t).rest.length < t.length := by
  refine cut_length_lt labels stop fun ht => h ?_
  rw [ht, cut_nil]

end StopSet

namespace Cut

/-- The cut at the first delimiter of any kind, its chunk without blanks at
its ends. -/
def next (labels : ClassLabels) (t : Text) : Cut := (StopSet.all.cut labels t).trimmed

theorem next_length_le (labels : ClassLabels) (t : Text) :
    (next labels t).rest.length ≤ t.length :=
  StopSet.cut_length_le labels .all t

theorem next_length_lt {labels : ClassLabels} {t : Text} (h : (next labels t).chunk ≠ []) :
    (next labels t).rest.length < t.length := by
  refine StopSet.cut_length_lt_of_chunk fun hc => h ?_
  show Text.trim _ = []
  rw [hc]
  rfl

end Cut

end InlineQuery
