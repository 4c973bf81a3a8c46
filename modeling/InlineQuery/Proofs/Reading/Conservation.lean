/-
Cutting text into chunks loses nothing and invents nothing.

A read takes a beginning off the text: some blanks, the chunk, and more
blanks. So the chunk has the visible characters of what was taken off, in
their order (`ChunkRead.removes_cut`), and the chunks of a sequence of reads
have those of all that was read (`cutAll_removes`). The stop sets, the names
of the classes and the trimming only decide where the text is cut.

# The end of the text

A reader takes an empty chunk for the end of the query. It may: no delimiter is
made of blanks, and text in front of one is cut there only if it is not blank
(`StopSet.isBlankText_of_cut`), so a trimmed chunk is empty at the end only.
-/
import InlineQuery.Proofs.Reading.Appending

namespace InlineQuery

-- ======================================================= visible characters

namespace Text

/-- The characters of a text that are not blanks, in order. -/
def visible (t : Text) : Text := t.filter fun c => !isBlank c

@[simp]
theorem visible_append (t u : Text) : visible (t ++ u) = visible t ++ visible u :=
  List.filter_append t u

theorem visible_eq_nil_iff {t : Text} : visible t = [] ↔ isBlankText t = true := by
  simp [visible, isBlankText]

/-- Trimming takes nothing visible off a text. -/
theorem visible_trim (t : Text) : visible (trim t) = visible t := by
  obtain ⟨front, back, hfront, hback, happend⟩ := trim_append t
  calc visible (trim t)
      = visible front ++ visible (trim t) ++ visible back := by
        rw [visible_eq_nil_iff.2 hfront, visible_eq_nil_iff.2 hback, List.nil_append,
          List.append_nil]
    _ = visible (front ++ trim t ++ back) := by rw [visible_append, visible_append]
    _ = visible t := by rw [happend]

end Text

/-- Cutting `t` takes a beginning off it that has the visible characters of
the chunk, and no others. -/
def Cut.Removes (cut : Cut) (t : Text) : Prop :=
  ∃ removed, removed ++ cut.rest = t ∧ Text.visible removed = Text.visible cut.chunk

namespace Cut

variable {cut : Cut} {t : Text}

theorem removes_of_append (front back : Text) (hfront : Text.isBlankText front = true)
    (hback : Text.isBlankText back = true) (h : front ++ cut.chunk ++ back ++ cut.rest = t) :
    cut.Removes t := by
  refine ⟨front ++ cut.chunk ++ back, h, ?_⟩
  rw [Text.visible_append, Text.visible_append, Text.visible_eq_nil_iff.2 hfront,
    Text.visible_eq_nil_iff.2 hback, List.nil_append, List.append_nil]

theorem Removes.trimmed (h : cut.Removes t) : cut.trimmed.Removes t := by
  obtain ⟨removed, happend, hvisible⟩ := h
  exact ⟨removed, happend, hvisible.trans (Text.visible_trim cut.chunk).symm⟩

end Cut

namespace StopSet

variable {labels : ClassLabels} {stop : StopSet} {t : Text} {parts : Text × Text}

/-- Between the text in front of a delimiter and the delimiter there are only
blanks. -/
theorem append_splitBefore (labels : ClassLabels) (stop : StopSet) (t : Text) :
    ∃ blanks, Text.isBlankText blanks = true ∧
      (stop.splitBefore labels t).1 ++ blanks ++ (stop.splitBefore labels t).2 = t := by
  induction t with
  | nil => exact ⟨[], rfl, rfl⟩
  | cons c t ih =>
    rw [splitBefore]
    split
    · exact ⟨(c :: t).takeWhile isBlank, List.all_takeWhile, List.takeWhile_append_dropWhile⟩
    · obtain ⟨blanks, hblanks, happend⟩ := ih
      exact ⟨blanks, hblanks, congrArg (c :: ·) happend⟩

theorem removes_cut (labels : ClassLabels) (stop : StopSet) (t : Text) :
    (stop.cut labels t).Removes t := by
  rw [cut]
  split
  · next delimiter rest h =>
    obtain ⟨blanks, hblanks, happend⟩ := append_of_delimiter? h
    exact Cut.removes_of_append blanks [] hblanks rfl (by rw [List.append_nil]; exact happend)
  · obtain ⟨blanks, hblanks, happend⟩ := append_splitBefore labels stop t
    exact Cut.removes_of_append [] blanks rfl hblanks happend

end StopSet

-- ==================================================================== reads

/-- How a chunk is read: up to which delimiters, and whether the blanks at
its ends are left out. -/
structure ChunkRead where
  stop : StopSet
  trims : Bool
deriving Repr, DecidableEq

namespace ChunkRead

/-- The cut that a read makes. -/
def cut (labels : ClassLabels) (read : ChunkRead) (t : Text) : Cut :=
  let cut := read.stop.cut labels t
  if read.trims then cut.trimmed else cut

theorem cut_rest (labels : ClassLabels) (read : ChunkRead) (t : Text) :
    (read.cut labels t).rest = (read.stop.cut labels t).rest := by
  rw [cut]
  split <;> rfl

theorem cut_of_trims (labels : ClassLabels) {read : ChunkRead} (h : read.trims = true)
    (t : Text) : read.cut labels t = (read.stop.cut labels t).trimmed := by
  rw [cut, if_pos h]

/-- A read takes the chunk off the text, and blanks. -/
theorem removes_cut (labels : ClassLabels) (read : ChunkRead) (t : Text) :
    (read.cut labels t).Removes t := by
  have hcut := read.stop.removes_cut labels t
  rw [cut]
  split
  · exact hcut.trimmed
  · exact hcut

/-- Nothing is left of a trimmed chunk only where nothing was left to read. -/
theorem chunk_cut_eq_nil_iff (labels : ClassLabels) {read : ChunkRead}
    (h : read.trims = true) (t : Text) :
    (read.cut labels t).chunk = [] ↔ Text.isBlankText t = true := by
  constructor
  · intro hnil
    rw [cut_of_trims labels h] at hnil
    exact (StopSet.isBlankText_of_cut (Text.trim_eq_nil_iff.1 hnil)).1
  · intro hblank
    obtain ⟨removed, happend, hvisible⟩ := read.stop.removes_cut labels t
    rw [cut_of_trims labels h]
    refine Text.trim_eq_nil_iff.2 (Text.visible_eq_nil_iff.1 ?_)
    rw [← Text.visible_eq_nil_iff, ← happend, Text.visible_append,
      List.append_eq_nil_iff] at hblank
    exact hvisible.symm.trans hblank.1

end ChunkRead

-- ======================================================== sequences of reads

/-- The chunks of one read after another, and the text they leave. -/
def cutAll (labels : ClassLabels) : List ChunkRead → Text → List Text × Text
  | [], t => ([], t)
  | read :: reads, t =>
    let cut := read.cut labels t
    let behind := cutAll labels reads cut.rest
    (cut.chunk :: behind.1, behind.2)

/-- The chunks together have the visible characters of what was read. -/
theorem cutAll_removes (labels : ClassLabels) (reads : List ChunkRead) (t : Text) :
    Cut.Removes ⟨(cutAll labels reads t).1.flatten, (cutAll labels reads t).2⟩ t := by
  induction reads generalizing t with
  | nil => exact ⟨[], rfl, rfl⟩
  | cons read reads ih =>
    obtain ⟨first, hfirst, hchunk⟩ := read.removes_cut labels t
    obtain ⟨behind, hbehind, hchunks⟩ := ih (read.cut labels t).rest
    refine ⟨first ++ behind, ?_, ?_⟩
    · calc first ++ behind ++ (cutAll labels (read :: reads) t).2
          = first ++ (behind ++ (cutAll labels reads (read.cut labels t).rest).2) :=
            List.append_assoc _ _ _
        _ = first ++ (read.cut labels t).rest := by rw [hbehind]
        _ = t := hfirst
    · rw [Text.visible_append, hchunk, hchunks]
      exact (Text.visible_append _ _).symm

/-- Whatever the classes are called, and whichever reads were made before: the
chunks so far have the visible characters of the text read so far; the next
read takes a beginning off the rest that has the visible characters of its
chunk; that beginning is not empty while there is text; and a trimmed chunk is
empty just when nothing but blanks was left. -/
theorem reads_conserve_text (labels : ClassLabels) (t : Text) (reads : List ChunkRead)
    (read : ChunkRead) :
    let before := cutAll labels reads t
    let cut := read.cut labels before.2
    (∃ removed, removed ++ before.2 = t ∧
      Text.visible removed = Text.visible before.1.flatten) ∧
    (∃ removed, removed ++ cut.rest = before.2 ∧
      Text.visible removed = Text.visible cut.chunk ∧ (before.2 ≠ [] → removed ≠ [])) ∧
    (read.trims = true → (cut.chunk = [] ↔ Text.isBlankText before.2 = true)) := by
  intro before cut
  refine ⟨cutAll_removes labels reads t, ?_, fun h => read.chunk_cut_eq_nil_iff labels h _⟩
  obtain ⟨removed, happend, hvisible⟩ := read.removes_cut labels before.2
  refine ⟨removed, happend, hvisible, fun hne hnil => ?_⟩
  have hlt := StopSet.cut_length_lt labels read.stop hne
  rw [← read.cut_rest] at hlt
  rw [hnil, List.nil_append] at happend
  exact absurd (congrArg List.length happend) (Nat.ne_of_lt hlt)

end InlineQuery
