/-
How written text falls into chunks.

A reader cuts text at the first place where a delimiter starts. So a piece
of text is one chunk if no delimiter starts inside of it (`Passes`) and one
starts behind it; what else stands behind it does not matter. Delimiters
look through blanks, which is why the pieces of a written query may be set
off by any number of them.
-/
import InlineQuery.Proofs.Writing.Names
import InlineQuery.Reader.State

namespace InlineQuery

theorem Text.trimFront_eq_of_length {t : Text} (h : (trimFront t).length = t.length) :
    trimFront t = t :=
  (List.dropWhile_suffix isBlank).eq_of_length h

theorem Text.trimFront_trimFront (t : Text) : trimFront (trimFront t) = trimFront t := by
  refine trimFront_eq_self fun c hc => ?_
  have hfirst := List.head?_dropWhile_not isBlank t
  rw [show t.dropWhile isBlank = trimFront t from rfl, hc] at hfirst
  simpa using hfirst

-- ============================================================== delimiters

theorem firstDelimiter?_append (first second : List Text) (t : Text) :
    firstDelimiter? (first ++ second) t =
      (firstDelimiter? first t).or (firstDelimiter? second t) :=
  List.findSome?_append

theorem matchFront?_eq_none {c d : Char} (h : sameFold c d = false) (pattern t : Text) :
    matchFront? (c :: pattern) (d :: t) = none := by
  simp [matchFront?, h]

/-- The names that the two classes have everywhere. -/
def canonicalLabels : ClassLabels := ⟨categoryName, conceptName⟩

namespace StopSet

variable {labels : ClassLabels} {stop : StopSet} {t k w : Text}

/-- The delimiters that count at any place. -/
def anywhere (stop : StopSet) : List Text := stop.marks ++ stop.bars

theorem firstDelimiter?_inert {c : Char} (h : isInert c = true) (t : Text) :
    firstDelimiter? stop.anywhere (c :: t) = none := by
  simp only [isInert, List.all_cons, List.all_nil, Bool.and_true, Bool.and_eq_true,
    Bool.not_eq_true'] at h
  obtain ⟨h₁, h₂, h₃, h₄, h₅⟩ := h
  cases stop <;> simp [firstDelimiter?, anywhere, marks, bars, matchFront?, h₁, h₂, h₃, h₄, h₅]

theorem delimiter?_false (labels : ClassLabels) (stop : StopSet) (t : Text) :
    stop.delimiter? labels false t = firstDelimiter? stop.anywhere (Text.trimFront t) := by
  simp only [delimiter?, Bool.false_and, Bool.false_eq_true, if_false, anywhere]
  cases firstDelimiter? (stop.marks ++ stop.bars) (Text.trimFront t) <;> rfl

theorem delimiter?_true (labels : ClassLabels) (stop : StopSet) (h : Text.trimFront t = t) :
    stop.delimiter? labels true t =
      firstDelimiter? (stop.marks ++ stop.leadingMarks labels ++ stop.bars) t := by
  simp [delimiter?, h]

/-- A text starts with a delimiter if one of the marks stands in front,
blanks apart. -/
theorem delimiter?_of_marks {found : Text × Text}
    (h : firstDelimiter? stop.marks (Text.trimFront t) = some found) (start : Bool) :
    stop.delimiter? labels start t = some found := by
  have hanywhere : firstDelimiter? (stop.marks ++ stop.bars) (Text.trimFront t) = some found := by
    rw [firstDelimiter?_append, h]
    rfl
  simp only [delimiter?]
  split
  · next hstart =>
    have heq := Text.trimFront_eq_of_length (eq_of_beq (Bool.and_eq_true_iff.1 hstart).2)
    rw [firstDelimiter?_append, firstDelimiter?_append, ← heq, h]
    rfl
  · rw [hanywhere]

/-- Bars are delimiters where the name of a class does not stand in front of
them. -/
theorem delimiter?_of_anywhere {found : Text × Text}
    (h : firstDelimiter? stop.anywhere (Text.trimFront t) = some found)
    (hleading : firstDelimiter? (stop.leadingMarks labels) t = none) (start : Bool) :
    stop.delimiter? labels start t = some found := by
  simp only [delimiter?]
  split
  · next hstart =>
    have heq := Text.trimFront_eq_of_length (eq_of_beq (Bool.and_eq_true_iff.1 hstart).2)
    rw [anywhere, firstDelimiter?_append, heq] at h
    rw [firstDelimiter?_append, firstDelimiter?_append, hleading, Option.or_none]
    exact h
  · rw [anywhere] at h
    rw [h]

/-- If no other delimiter stands in front, the names of classes are left. -/
theorem delimiter?_leading (h : firstDelimiter? stop.anywhere (Text.trimFront t) = none) :
    stop.delimiter? labels true t = firstDelimiter? (stop.leadingMarks labels) t := by
  simp only [delimiter?]
  split
  · next hstart =>
    have heq := Text.trimFront_eq_of_length (eq_of_beq (Bool.and_eq_true_iff.1 hstart).2)
    rw [anywhere, firstDelimiter?_append, heq, Option.or_eq_none_iff] at h
    rw [firstDelimiter?_append, firstDelimiter?_append, h.1, h.2, Option.or_none, Option.none_or]
  · rw [anywhere] at h
    rw [h]
    rfl

theorem delimiter?_start_eq_none
    (h : firstDelimiter? stop.anywhere (Text.trimFront t) = none)
    (hleading : firstDelimiter? (stop.leadingMarks labels) t = none) :
    stop.delimiter? labels true t = none :=
  (delimiter?_leading h).trans hleading

-- =================================================================== pieces

/-- No delimiter starts inside of a text, if `k` stands behind it. -/
def Passes (stop : StopSet) (k : Text) : Text → Prop
  | [] => True
  | c :: w =>
    firstDelimiter? stop.anywhere (Text.trimFront (c :: w ++ k)) = none ∧ stop.Passes k w

theorem passes_nil (stop : StopSet) (k : Text) : stop.Passes k [] := trivial

theorem passes_append {u v : Text} (hu : stop.Passes (v ++ k) u) (hv : stop.Passes k v) :
    stop.Passes k (u ++ v) := by
  induction u with
  | nil => exact hv
  | cons c u ih =>
    refine ⟨?_, ih hu.2⟩
    have hhead := hu.1
    rw [← List.append_assoc] at hhead
    exact hhead

theorem passes_cons_inert {c : Char} (hinert : isInert c = true) (hblank : isBlank c = false)
    (h : stop.Passes k w) : stop.Passes k (c :: w) := by
  refine ⟨?_, h⟩
  rw [Text.trimFront_eq_self (t := c :: w ++ k) (by rintro d ⟨⟩; exact hblank)]
  exact firstDelimiter?_inert hinert _

theorem passes_cons_blank {c : Char} (hblank : isBlank c = true) (hne : w ≠ [])
    (h : stop.Passes k w) : stop.Passes k (c :: w) := by
  refine ⟨?_, h⟩
  cases w with
  | nil => exact absurd rfl hne
  | cons d w =>
    rw [Text.trimFront, List.cons_append, List.dropWhile_cons_of_pos hblank]
    exact h.1

theorem passes_blanks {b : Text} (hb : ∀ c ∈ b, isBlank c = true) (hne : w ≠ [])
    (h : stop.Passes k w) : stop.Passes k (b ++ w) := by
  induction b with
  | nil => exact h
  | cons c b ih =>
    exact passes_cons_blank (hb c List.mem_cons_self) (List.append_ne_nil_of_right_ne_nil b hne)
      (ih fun d hd => hb d (List.mem_cons_of_mem c hd))

/-- Where no delimiter could begin, text is never cut. What stands behind it
matters only if it ends with a blank. -/
theorem passes_of_isInert (hinert : ∀ c ∈ w, isInert c = true)
    (hend : (∀ c ∈ w.getLast?, isBlank c = false) ∨
      firstDelimiter? stop.anywhere (Text.trimFront k) = none) : stop.Passes k w := by
  induction w with
  | nil => trivial
  | cons c w ih =>
    have hw : stop.Passes k w := by
      refine ih (fun d hd => hinert d (List.mem_cons_of_mem c hd)) (hend.imp_left ?_)
      refine fun hlast d hd => hlast d ?_
      rw [List.getLast?_cons, Option.mem_def.1 hd]
      rfl
    by_cases hblank : isBlank c = true
    · cases w with
      | cons d w => exact passes_cons_blank hblank (List.cons_ne_nil d w) hw
      | nil =>
        rcases hend with hlast | hnone
        · rw [hlast c rfl] at hblank
          cases hblank
        · refine ⟨?_, trivial⟩
          rw [List.singleton_append, Text.trimFront, List.dropWhile_cons_of_pos hblank]
          exact hnone
    · exact passes_cons_inert (hinert c List.mem_cons_self) (by simpa using hblank) hw

/-- A name is never cut. -/
theorem passes_spaced (h : Spaced t) : stop.Passes k t := by
  refine passes_of_isInert (fun c hc => ?_)
    (.inl fun c hc => isBlank_of_isNameChar (h.last_isNameChar c hc))
  rcases h.isNameChar_or_eq_space c hc with hname | rfl
  · exact isInert_of_isNameChar hname
  · decide +kernel

theorem splitBefore_append (labels : ClassLabels) (h : stop.Passes k w) :
    stop.splitBefore labels (w ++ k) =
      (w ++ (stop.splitBefore labels k).1, (stop.splitBefore labels k).2) := by
  induction w with
  | nil => rfl
  | cons c w ih =>
    have hnone : stop.delimiter? labels false (c :: (w ++ k)) = none := by
      rw [delimiter?_false]
      exact h.1
    rw [List.cons_append, splitBefore, hnone, ih h.2]
    rfl

theorem splitBefore_delimiter
    (h : (firstDelimiter? stop.anywhere (Text.trimFront k)).isSome = true) :
    stop.splitBefore labels k = ([], Text.trimFront k) := by
  cases k with
  | nil => rfl
  | cons c k =>
    obtain ⟨found, hfound⟩ := Option.isSome_iff_exists.1 h
    rw [splitBefore, delimiter?_false, hfound]

/-- A piece in front of a delimiter is one chunk. -/
theorem cut_piece (hne : w ≠ []) (hpasses : stop.Passes k w)
    (hleading : firstDelimiter? (stop.leadingMarks labels) (w ++ k) = none)
    (hk : (firstDelimiter? stop.anywhere (Text.trimFront k)).isSome = true) :
    stop.cut labels (w ++ k) = ⟨w, Text.trimFront k⟩ := by
  have hnone : stop.delimiter? labels true (w ++ k) = none := by
    refine delimiter?_start_eq_none ?_ hleading
    cases w with
    | nil => exact absurd rfl hne
    | cons c w => exact hpasses.1
  rw [cut, hnone, splitBefore_append labels hpasses, splitBefore_delimiter hk, List.append_nil]

-- ========================================================= names of classes

/-- Text with the name of a class in front of a colon is that name, letter
case apart, in front of its first colon. -/
theorem matchFront?_label_eq_none {name w : Text} {c : Char} (k : Text)
    (hname : ∀ d ∈ name, sameFold d c = false) (hw : ∀ d ∈ w, sameFold ':' d = false)
    (hdifferent : sameFold ':' c = false ∨ name.map foldCode ≠ w.map foldCode) :
    matchFront? (name ++ [':']) (w ++ c :: k) = none := by
  induction name generalizing w with
  | nil =>
    cases w with
    | nil =>
      rcases hdifferent with h | h
      · exact matchFront?_eq_none h _ _
      · exact absurd rfl h
    | cons d w => exact matchFront?_eq_none (hw d List.mem_cons_self) _ _
  | cons a name ih =>
    cases w with
    | nil => exact matchFront?_eq_none (hname a List.mem_cons_self) _ _
    | cons d w =>
      rw [List.cons_append, List.cons_append, matchFront?]
      split
      · next hsame =>
        have hrest : matchFront? (name ++ [':']) (w ++ c :: k) = none := by
          refine ih (fun e he => hname e (List.mem_cons_of_mem a he))
            (fun e he => hw e (List.mem_cons_of_mem d he)) ?_
          rcases hdifferent with h | h
          · exact .inl h
          · refine .inr fun heq => h ?_
            rw [List.map_cons, List.map_cons, heq, eq_of_beq hsame]
        rw [hrest]
        rfl
      · rfl

theorem leadingMarks_eq_none {t : Text} (hcategory : matchFront? (categoryName ++ [':']) t = none)
    (hconcept : matchFront? (conceptName ++ [':']) t = none) (stop : StopSet) :
    firstDelimiter? (stop.leadingMarks canonicalLabels) t = none := by
  cases stop with
  | all => simp [leadingMarks, canonicalLabels, firstDelimiter?, hcategory, hconcept]
  | closingBrackets => rfl
  | atomContent => rfl

/-- The names of both classes begin with the same letter. -/
theorem leadingMarks_of_head {t : Text} (h : ∀ c ∈ t.head?, sameFold 'C' c = false)
    (stop : StopSet) : firstDelimiter? (stop.leadingMarks canonicalLabels) t = none := by
  cases t with
  | nil => exact leadingMarks_eq_none rfl rfl stop
  | cons c t =>
    have hc := h c rfl
    exact leadingMarks_eq_none (matchFront?_eq_none hc _ _) (matchFront?_eq_none hc _ _) stop

theorem sameFold_of_isBlank {c : Char} (h : isBlank c = true) : sameFold 'C' c = false := by
  have hall : ∀ range ∈ blankRanges, ∀ i < range.2 - range.1 + 1,
      foldCode 'C' ≠ CaseRun.mapCode foldRuns (range.1 + i) := by
    decide +kernel
  obtain ⟨range, hrange, hc⟩ := List.any_eq_true.1 h
  rw [Bool.and_eq_true, decide_eq_true_eq, decide_eq_true_eq] at hc
  have := hall range hrange (c.toNat - range.1) (by omega)
  rw [show range.1 + (c.toNat - range.1) = c.toNat by omega] at this
  exact beq_eq_false_iff_ne.2 this

/-- A name in front of `]]` or `||` is not the name of a class, and one in
front of `::` is not, unless it is that name. -/
theorem leadingMarks_of_piece {w : Text} {c : Char} (k : Text)
    (hw : ∀ d ∈ w, sameFold ':' d = false) (hc : c ∈ [']', '|', ':'])
    (hdifferent : c = ':' → categoryName.map foldCode ≠ w.map foldCode ∧
      conceptName.map foldCode ≠ w.map foldCode) (stop : StopSet) :
    firstDelimiter? (stop.leadingMarks canonicalLabels) (w ++ c :: k) = none := by
  have hletters : [']', '|', ':'].all (fun c => (categoryName ++ conceptName).all
      fun d => !sameFold d c) = true := by
    decide +kernel
  have hname : ∀ d ∈ categoryName ++ conceptName, sameFold d c = false := by
    have := List.all_eq_true.1 (List.all_eq_true.1 hletters c hc)
    exact fun d hd => by simpa using this d hd
  have hcategory : ∀ d ∈ categoryName, sameFold d c = false :=
    fun d hd => hname d (List.mem_append_left _ hd)
  have hconcept : ∀ d ∈ conceptName, sameFold d c = false :=
    fun d hd => hname d (List.mem_append_right _ hd)
  have hcolon : c ≠ ':' → sameFold ':' c = false := by
    simp only [List.mem_cons, List.not_mem_nil, or_false] at hc
    rcases hc with rfl | rfl | rfl <;> decide +kernel
  by_cases h : c = ':'
  · obtain ⟨hcat, hcon⟩ := hdifferent h
    exact leadingMarks_eq_none (matchFront?_label_eq_none k hcategory hw (.inr hcat))
      (matchFront?_label_eq_none k hconcept hw (.inr hcon)) stop
  · exact leadingMarks_eq_none (matchFront?_label_eq_none k hcategory hw (.inl (hcolon h)))
      (matchFront?_label_eq_none k hconcept hw (.inl (hcolon h))) stop

end StopSet

-- =========================================================== cuts of readers

namespace Reader

open StopSet

variable {r : Reader} {s : State} {k w : Text}

theorem next_mark {mark : Text} (hmark : mark ∈ StopSet.all.marks)
    (h : Text.trimFront s.rest = mark ++ k) : r.next s = ⟨mark, { s with rest := k }⟩ := by
  have hfirst : firstDelimiter? StopSet.all.marks (mark ++ k) = some (mark, k) := by
    simp only [marks, List.mem_cons, List.not_mem_nil, or_false] at hmark
    rcases hmark with rfl | rfl | rfl | rfl | rfl | rfl <;> rfl
  have htrim : ∀ mark ∈ StopSet.all.marks, Text.trim mark = mark := by decide
  rw [next, Cut.next, cut, delimiter?_of_marks (h ▸ hfirst)]
  simp only [Cut.trimmed, htrim mark hmark]

theorem next_bars (hlabels : r.config.labels = canonicalLabels)
    (h : Text.trimFront s.rest = '|' :: '|' :: k) :
    r.next s = ⟨['|', '|'], { s with rest := k }⟩ := by
  have hfirst : firstDelimiter? StopSet.all.anywhere ('|' :: '|' :: k) =
      some (['|', '|'], k) := rfl
  have hleading : firstDelimiter? (StopSet.all.leadingMarks canonicalLabels) s.rest = none := by
    refine leadingMarks_of_head ?_ .all
    intro c hc
    by_cases hblank : isBlank c = true
    · exact sameFold_of_isBlank hblank
    · have hself : Text.trimFront s.rest = s.rest :=
        Text.trimFront_eq_self fun d hd => by
          rw [Option.mem_unique hd hc]
          simpa using hblank
      rw [← hself, h] at hc
      cases hc
      decide +kernel
  rw [next, Cut.next, cut, hlabels, delimiter?_of_anywhere (h ▸ hfirst) hleading]
  rfl

/-- A piece in front of a delimiter is read without the blanks at its ends. -/
theorem next_piece (hlabels : r.config.labels = canonicalLabels) (h : s.rest = w ++ k)
    (hne : w ≠ []) (hpasses : StopSet.all.Passes k w)
    (hleading : firstDelimiter? (StopSet.all.leadingMarks canonicalLabels) (w ++ k) = none)
    (hk : (firstDelimiter? StopSet.all.anywhere (Text.trimFront k)).isSome = true) :
    r.next s = ⟨Text.trim w, { s with rest := Text.trimFront k }⟩ := by
  rw [next, Cut.next, h, hlabels, cut_piece hne hpasses hleading hk]
  rfl

/-- The word `OR` is a chunk of its own in front of an alternative. -/
theorem next_or (hlabels : r.config.labels = canonicalLabels)
    (h : Text.trimFront s.rest = 'O' :: 'R' :: ' ' :: k)
    (hk : (firstDelimiter? StopSet.all.anywhere (Text.trimFront k)).isSome = true) :
    r.next s = ⟨['O', 'R'], { s with rest := Text.trimFront k }⟩ := by
  have hsplit : s.rest = s.rest.takeWhile isBlank ++ ['O', 'R'] ++ ' ' :: k := by
    rw [List.append_assoc]
    show s.rest = s.rest.takeWhile isBlank ++ 'O' :: 'R' :: ' ' :: k
    rw [← h]
    exact List.takeWhile_append_dropWhile.symm
  have hblank : ∀ c ∈ s.rest.takeWhile isBlank, isBlank c = true :=
    List.all_eq_true.1 List.all_takeWhile
  generalize s.rest.takeWhile isBlank = b at hsplit hblank
  have htrim : Text.trim (b ++ ['O', 'R']) = ['O', 'R'] := by
    rw [Text.trim, Text.trimFront, List.dropWhile_append_of_pos hblank]
    rfl
  have hpasses : StopSet.all.Passes (' ' :: k) (b ++ ['O', 'R']) := by
    refine passes_blanks hblank (List.cons_ne_nil _ _) ?_
    exact passes_cons_inert (by decide +kernel) (by decide)
      (passes_cons_inert (by decide +kernel) (by decide) (passes_nil .all _))
  have hleading : firstDelimiter? (StopSet.all.leadingMarks canonicalLabels)
      (b ++ ['O', 'R'] ++ ' ' :: k) = none := by
    refine leadingMarks_of_head (fun c hc => ?_) .all
    cases b with
    | nil =>
      cases hc
      decide +kernel
    | cons d b =>
      cases hc
      exact sameFold_of_isBlank (hblank _ List.mem_cons_self)
  rw [next_piece hlabels hsplit (List.append_ne_nil_of_right_ne_nil b (List.cons_ne_nil _ _))
    hpasses hleading hk, htrim]
  rfl

/-- Behind the last delimiter there are blanks at most. -/
theorem text_next_end (hlabels : r.config.labels = canonicalLabels)
    (h : Text.trimFront s.rest = []) : (r.next s).text = [] := by
  have hblank : ∀ c ∈ s.rest, isBlank c = true := by
    have := Text.trimFront_eq_nil_iff.1 h
    rwa [Text.isBlankText, List.all_eq_true] at this
  have hpasses {w : Text} (hw : ∀ c ∈ w, isBlank c = true) : StopSet.all.Passes [] w := by
    induction w with
    | nil => trivial
    | cons c w ih =>
      refine ⟨?_, ih fun d hd => hw d (List.mem_cons_of_mem c hd)⟩
      have : Text.trimFront (c :: w ++ []) = [] := by
        rw [List.append_nil, Text.trimFront_eq_nil_iff, Text.isBlankText, List.all_eq_true]
        exact hw
      rw [this]
      rfl
  have hnone : StopSet.all.delimiter? canonicalLabels true s.rest = none := by
    refine delimiter?_start_eq_none (by rw [h]; rfl) (leadingMarks_of_head ?_ .all)
    exact fun c hc => sameFold_of_isBlank (hblank c (List.mem_of_mem_head? hc))
  have hsplit := splitBefore_append canonicalLabels (hpasses hblank)
  rw [List.append_nil] at hsplit
  rw [next, Cut.next, cut, hlabels, hnone, hsplit]
  show Text.trim (s.rest ++ []) = []
  rw [List.append_nil, Text.trim_eq_nil_iff]
  exact Text.trimFront_eq_nil_iff.1 h

/-- What may stand behind a name or a value inside of an atom: the end of the
atom, or one more name or value. -/
inductive IsEnding : Text → Prop
  | closing : IsEnding [']', ']']
  | bars : IsEnding ['|', '|']

/-- A delimiter stands in front of the text. -/
structure StopsAt (k : Text) : Prop where
  trimFront : Text.trimFront k = k
  isSome : (firstDelimiter? StopSet.all.anywhere k).isSome = true

theorem stopsAt_separator (k : Text) : StopsAt ([':', ':'] ++ k) := ⟨rfl, rfl⟩

namespace IsEnding

variable {ending : Text}

theorem stopsAt (h : IsEnding ending) (k : Text) : StopsAt (ending ++ k) := by
  cases h
  · exact ⟨rfl, rfl⟩
  · exact ⟨rfl, rfl⟩

theorem trim_eq_self (h : IsEnding ending) : Text.trim ending = ending := by
  cases h <;> rfl

theorem next (h : IsEnding ending) (hlabels : r.config.labels = canonicalLabels)
    (hrest : Text.trimFront s.rest = ending ++ k) :
    r.next s = ⟨ending, { s with rest := k }⟩ := by
  cases h
  · exact next_mark (by decide) hrest
  · exact next_bars hlabels hrest

/-- No name in front of an ending is taken for that of a class. -/
theorem leadingMarks (h : IsEnding ending) (hw : ∀ d ∈ w, sameFold ':' d = false) (k : Text) :
    firstDelimiter? (StopSet.all.leadingMarks canonicalLabels) (w ++ (ending ++ k)) = none := by
  cases h
  · exact leadingMarks_of_piece (']' :: k) hw (by decide) (fun h => absurd h (by decide)) .all
  · exact leadingMarks_of_piece ('|' :: k) hw (by decide) (fun h => absurd h (by decide)) .all

/-- Inside of a value, only brackets and bars are delimiters. -/
theorem cut_atomContent (h : IsEnding ending) (labels : ClassLabels) (k : Text) :
    StopSet.atomContent.cut labels (ending ++ k) = ⟨ending, k⟩ := by
  have hfirst : firstDelimiter? StopSet.atomContent.anywhere (Text.trimFront (ending ++ k)) =
      some (ending, k) := by
    cases h <;> rfl
  rw [cut, delimiter?_of_anywhere hfirst rfl]

theorem nextAt_atomContent (h : IsEnding ending) (hrest : s.rest = ending ++ k) :
    r.nextAt .atomContent s = ⟨ending, { s with rest := k }⟩ := by
  rw [nextAt, hrest, h.cut_atomContent]
  simp only [Cut.trimmed, h.trim_eq_self]

end IsEnding

end Reader

end InlineQuery
