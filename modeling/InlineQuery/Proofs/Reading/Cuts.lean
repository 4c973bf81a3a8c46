/-
How text is cut, whatever stands in it.

A cut takes a delimiter, or the text in front of one. If there is neither, the
text is blank: a reader that finds no next chunk has come to the end of the
query (`Reader.rest_next_of_nil`), whatever the classes are called.
-/
import InlineQuery.Chunk.Token
import InlineQuery.Proofs.Writing.Chunks

namespace InlineQuery

-- ================================================================= matching

variable {pattern t k : Text} {parts : Text × Text}

/-- A match has every character of the pattern, letter case apart. -/
theorem exists_sameFold_of_matchFront? {c : Char} (hc : c ∈ pattern)
    (h : matchFront? pattern t = some parts) : ∃ d ∈ parts.1, sameFold c d = true := by
  induction pattern generalizing t parts with
  | nil => exact absurd hc List.not_mem_nil
  | cons e pattern ih =>
    cases t with
    | nil => cases h
    | cons d t =>
      rw [matchFront?] at h
      split at h
      · next hsame =>
        obtain ⟨inner, hinner, rfl⟩ := Option.map_eq_some_iff.1 h
        rcases List.mem_cons.1 hc with rfl | hc
        · exact ⟨d, List.mem_cons_self, hsame⟩
        · obtain ⟨f, hf, hfold⟩ := ih hc hinner
          exact ⟨f, List.mem_cons_of_mem d hf, hfold⟩
      · cases h

theorem matchFront?_append (h : matchFront? pattern t = some parts) (k : Text) :
    matchFront? pattern (t ++ k) = some (parts.1, parts.2 ++ k) := by
  induction pattern generalizing t parts with
  | nil =>
    rw [matchFront?] at h
    cases h
    rw [matchFront?]
  | cons c pattern ih =>
    cases t with
    | nil => cases h
    | cons d t =>
      rw [matchFront?] at h
      rw [List.cons_append, matchFront?]
      split at h
      · next hsame =>
        obtain ⟨inner, hinner, rfl⟩ := Option.map_eq_some_iff.1 h
        rw [if_pos hsame, ih hinner]
        rfl
      · cases h

/-- Symbols are matched by themselves only. -/
theorem fst_of_matchFront? (hpattern : pattern.all isCaseless = true)
    (h : matchFront? pattern t = some parts) : parts.1 = pattern := by
  induction pattern generalizing t parts with
  | nil =>
    rw [matchFront?] at h
    cases h
    rfl
  | cons c pattern ih =>
    rw [List.all_cons, Bool.and_eq_true] at hpattern
    cases t with
    | nil => cases h
    | cons d t =>
      rw [matchFront?] at h
      split at h
      · next hsame =>
        obtain ⟨inner, hinner, rfl⟩ := Option.map_eq_some_iff.1 h
        rw [eq_of_sameFold hpattern.1 hsame, ih hpattern.2 hinner]
      · cases h

-- =================================================================== blanks

/-- Blanks begin no delimiter. -/
theorem isInert_of_isBlank {c : Char} (h : isBlank c = true) : isInert c = true := by
  have hall : ∀ range ∈ blankRanges, ∀ i < range.2 - range.1 + 1,
      ['[', ']', ':', '<', '|'].all
        (fun d => !(foldCode d == CaseRun.mapCode foldRuns (range.1 + i))) = true := by
    decide +kernel
  obtain ⟨range, hrange, hc⟩ := List.any_eq_true.1 h
  rw [Bool.and_eq_true, decide_eq_true_eq, decide_eq_true_eq] at hc
  have hblank := hall range hrange (c.toNat - range.1) (by omega)
  rwa [show range.1 + (c.toNat - range.1) = c.toNat by omega] at hblank

theorem isInert_of_sameFold {c d : Char} (h : sameFold c d = true) :
    isInert d = isInert c := by
  have hfold : foldCode c = foldCode d := eq_of_beq h
  simp only [isInert, sameFold, hfold]

/-- A match of a pattern that is not all inert is not inert either. -/
theorem exists_not_isInert_of_matchFront? {c : Char} (hc : c ∈ pattern)
    (hinert : isInert c = false) (h : matchFront? pattern t = some parts) :
    ∃ d ∈ parts.1, isInert d = false := by
  obtain ⟨d, hd, hsame⟩ := exists_sameFold_of_matchFront? hc h
  refine ⟨d, hd, ?_⟩
  rw [isInert_of_sameFold hsame]
  exact hinert

namespace StopSet

variable {labels : ClassLabels} {stop : StopSet}

/-- Every delimiter has a character in it that is not inert. -/
theorem exists_not_isInert {mark : Text}
    (h : mark ∈ stop.marks ++ stop.leadingMarks labels ++ stop.bars) :
    ∃ c ∈ mark, isInert c = false := by
  have hfixed : ∀ mark ∈ stop.anywhere, ∃ c ∈ mark, isInert c = false := by
    have hall : stop.anywhere.all (fun mark => !mark.all isInert) = true := by
      cases stop <;> decide +kernel
    intro mark hmark
    have hmixed := List.all_eq_true.1 hall mark hmark
    rw [Bool.not_eq_true'] at hmixed
    obtain ⟨c, hc, hinert⟩ := List.all_eq_false.1 hmixed
    exact ⟨c, hc, Bool.eq_false_iff.2 hinert⟩
  rw [List.append_assoc, List.mem_append, List.mem_append] at h
  rcases h with h | h | h
  · exact hfixed mark (List.mem_append_left _ h)
  · cases stop with
    | all =>
      obtain ⟨name, -, rfl⟩ := List.mem_map.1 h
      exact ⟨':', List.mem_append_right _ List.mem_cons_self, by decide +kernel⟩
    | closingBrackets => cases h
    | atomContent => cases h
  · exact hfixed mark (List.mem_append_right _ h)

/-- What is cut off as a delimiter is not inert. -/
theorem exists_not_isInert_of_delimiter? {start : Bool}
    (h : stop.delimiter? labels start t = some parts) : ∃ d ∈ parts.1, isInert d = false := by
  have hfound {delimiters : List Text} {t : Text}
      (hsubset : delimiters ⊆ stop.marks ++ stop.leadingMarks labels ++ stop.bars)
      (h : firstDelimiter? delimiters t = some parts) : ∃ d ∈ parts.1, isInert d = false := by
    obtain ⟨mark, hmark, hmatch⟩ := List.exists_of_findSome?_eq_some h
    obtain ⟨c, hc, hinert⟩ := exists_not_isInert (hsubset hmark)
    exact exists_not_isInert_of_matchFront? hc hinert hmatch
  simp only [delimiter?] at h
  split at h
  · exact hfound (fun _ hmark => hmark) h
  · split at h
    · next heq =>
      cases h
      refine hfound (fun mark hmark => ?_) heq
      rw [List.append_assoc, List.mem_append, List.mem_append]
      rcases List.mem_append.1 hmark with hmark | hmark
      · exact .inl hmark
      · exact .inr (.inr hmark)
    · split at h
      · refine hfound (fun mark hmark => ?_) h
        rw [List.append_assoc, List.mem_append, List.mem_append]
        exact .inr (.inl hmark)
      · cases h

/-- A delimiter stands at the front of the text, with blanks before it. -/
theorem append_of_delimiter? {start : Bool} (h : stop.delimiter? labels start t = some parts) :
    ∃ blanks, Text.isBlankText blanks = true ∧ blanks ++ parts.1 ++ parts.2 = t := by
  simp only [delimiter?] at h
  split at h
  · exact ⟨[], rfl, (append_of_firstDelimiter? h).symm⟩
  · split at h
    · next found hfound =>
      cases h
      refine ⟨t.takeWhile isBlank, List.all_takeWhile, ?_⟩
      rw [List.append_assoc, ← append_of_firstDelimiter? hfound]
      exact List.takeWhile_append_dropWhile
    · split at h
      · exact ⟨[], rfl, (append_of_firstDelimiter? h).symm⟩
      · cases h

theorem not_isBlankText_of_delimiter? {start : Bool}
    (h : stop.delimiter? labels start t = some parts) : Text.isBlankText parts.1 = false := by
  obtain ⟨d, hd, hinert⟩ := exists_not_isInert_of_delimiter? h
  rw [Text.isBlankText, List.all_eq_false]
  refine ⟨d, hd, fun hblank => ?_⟩
  rw [isInert_of_isBlank hblank] at hinert
  cases hinert

/-- In front of its first delimiter, a text that does not begin with one has
more than blanks, or it is blank altogether. -/
theorem isBlankText_of_splitBefore (hnone : stop.delimiter? labels false t = none)
    (h : Text.isBlankText (stop.splitBefore labels t).1 = true) :
    Text.isBlankText t = true := by
  induction t with
  | nil => rfl
  | cons c t ih =>
    rw [splitBefore, hnone] at h
    obtain ⟨hc, hrest⟩ := Bool.and_eq_true_iff.1 h
    refine Bool.and_eq_true_iff.2 ⟨hc, ih ?_ hrest⟩
    rw [delimiter?_false, Text.trimFront, List.dropWhile_cons_of_pos hc] at hnone
    rw [delimiter?_false]
    exact hnone

/-- Inert text is cut nowhere. -/
theorem splitBefore_of_isInert (h : ∀ c ∈ t, isInert c = true) :
    stop.splitBefore labels t = (t, []) := by
  induction t with
  | nil => rfl
  | cons c t ih =>
    have hnone : stop.delimiter? labels false (c :: t) = none := by
      rw [delimiter?_false]
      cases hbody : Text.trimFront (c :: t) with
      | nil => cases stop <;> rfl
      | cons d u =>
        have hmem : d ∈ Text.trimFront (c :: t) := hbody ▸ List.mem_cons_self
        exact firstDelimiter?_inert (h d ((List.dropWhile_sublist isBlank).subset hmem)) u
    rw [splitBefore, hnone, ih fun d hd => h d (List.mem_cons_of_mem c hd)]

theorem splitBefore_of_isBlankText (h : Text.isBlankText t = true) :
    stop.splitBefore labels t = (t, []) :=
  splitBefore_of_isInert fun c hc => isInert_of_isBlank (List.all_eq_true.1 h c hc)

/-- A cut that leaves nothing takes everything. -/
theorem splitBefore_of_rest_nil (h : (stop.splitBefore labels t).2 = []) :
    (stop.splitBefore labels t).1 = t := by
  induction t with
  | nil => rfl
  | cons c t ih =>
    cases hdelimiter : stop.delimiter? labels false (c :: t) with
    | some found =>
      rw [splitBefore, hdelimiter] at h
      rw [splitBefore_of_isBlankText (Text.trimFront_eq_nil_iff.1 h)]
    | none =>
      rw [splitBefore, hdelimiter] at h ⊢
      exact congrArg (c :: ·) (ih h)

/-- A cut that yields nothing but blanks has come to the end of the text. -/
theorem isBlankText_of_cut (h : Text.isBlankText (stop.cut labels t).chunk = true) :
    Text.isBlankText t = true ∧ (stop.cut labels t).rest = [] := by
  cases hdelimiter : stop.delimiter? labels true t with
  | some found =>
    rw [cut, hdelimiter] at h
    rw [not_isBlankText_of_delimiter? hdelimiter] at h
    cases h
  | none =>
    rw [cut, hdelimiter] at h ⊢
    have hblank := isBlankText_of_splitBefore (delimiter?_start hdelimiter) h
    exact ⟨hblank, congrArg Prod.snd (splitBefore_of_isBlankText hblank)⟩

end StopSet

-- =================================================================== tokens

namespace Token

/-- How the token is written. -/
def Spells (chunk : Text) : Token → Prop
  | openAtom => chunk = ['[', '[']
  | closeAtom => chunk = [']', ']']
  | separator => chunk = [':', ':'] ∨ chunk = [':', '=']
  | openQuery => chunk.map Char.toLower = ['<', 'q', '>']
  | closeQuery => chunk.map Char.toLower = ['<', '/', 'q', '>']
  | bars => chunk = ['|', '|']
  | orWord => chunk = ['O', 'R']
  | bar => chunk = ['|']
  | wildcard => chunk = ['+']
  | finish => chunk = []
  | text => True

theorem spells_ofChunk (chunk : Text) : (ofChunk chunk).Spells chunk := by
  have hite {p : Prop} [Decidable p] {token other : Token} (htoken : p → token.Spells chunk)
      (hother : other.Spells chunk) : (if p then token else other).Spells chunk := by
    split
    · next hp => exact htoken hp
    · exact hother
  unfold ofChunk
  repeat' apply hite
  all_goals first | exact id | exact trivial

end Token

namespace Reader

variable {r : Reader} {s : State}

/-- There is no next chunk only if nothing but blanks is left. -/
theorem rest_next_of_nil (h : (r.next s).text = []) :
    Text.isBlankText s.rest = true ∧ (r.next s).state.rest = [] :=
  StopSet.isBlankText_of_cut (Text.trim_eq_nil_iff.1 h)

end Reader

end InlineQuery
