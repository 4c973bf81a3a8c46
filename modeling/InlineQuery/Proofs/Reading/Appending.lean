/-
How far a cut looks.

A cut does not look beyond the delimiter that it finds. If text is appended
behind, the same chunk is cut off, and the appended text stays where it is
(`cut_append`). What a reader finds in a text is therefore the same wherever the
text stands, up to the last delimiter in it.

# Delimiters that could grow

Appended text could only matter by completing a delimiter of which the text
has the beginning. What follows the first character of such a beginning is
inert, so no delimiter stands in it, and the text would have been cut nowhere
at all. Among complete delimiters there is a single one that is the beginning
of another, namely `|`.

Both are facts about the delimiters themselves, and both can fail where the
classes have other names than those that they have everywhere.
-/
import InlineQuery.Proofs.Reading.Cuts

namespace InlineQuery

variable {pattern t k : Text} {parts : Text × Text}

-- ================================================================= matching

/-- A text that matches only with something behind it is a proper beginning
of the pattern. -/
theorem sameFold_of_matchFront?_append (hnone : matchFront? pattern t = none)
    (h : matchFront? pattern (t ++ k) = some parts) :
    t.length < pattern.length ∧ ∀ d ∈ t, ∃ c ∈ pattern.dropLast, sameFold c d = true := by
  induction pattern generalizing t parts with
  | nil => cases hnone
  | cons c pattern ih =>
    cases t with
    | nil => exact ⟨Nat.succ_pos _, fun d hd => nomatch hd⟩
    | cons d t =>
      rw [List.cons_append, matchFront?] at h
      rw [matchFront?] at hnone
      split at h
      · next hsame =>
        rw [if_pos hsame] at hnone
        obtain ⟨inner, hinner, -⟩ := Option.map_eq_some_iff.1 h
        obtain ⟨hlength, hfold⟩ := ih (Option.map_eq_none_iff.1 hnone) hinner
        have hne : pattern ≠ [] := by
          rintro rfl
          exact absurd hlength (Nat.not_lt_zero _)
        rw [List.dropLast_cons_of_ne_nil hne]
        refine ⟨Nat.succ_lt_succ hlength, fun e he => ?_⟩
        rcases List.mem_cons.1 he with rfl | he
        · exact ⟨c, List.mem_cons_self, hsame⟩
        · obtain ⟨f, hf, hfe⟩ := hfold e he
          exact ⟨f, List.mem_cons_of_mem c hf, hfe⟩
      · cases h

/-- Of two patterns that a text matches, the shorter one is the beginning of
the longer one. -/
theorem matchFront?_of_matchFront? {longer : Text} {parts' : Text × Text}
    (h : matchFront? pattern t = some parts) (h' : matchFront? longer (t ++ k) = some parts')
    (hlength : pattern.length ≤ longer.length) : (matchFront? pattern longer).isSome = true := by
  induction pattern generalizing t longer parts parts' with
  | nil => rfl
  | cons c pattern ih =>
    cases longer with
    | nil => exact absurd hlength (Nat.not_succ_le_zero _)
    | cons e longer =>
      cases t with
      | nil => cases h
      | cons d t =>
        rw [List.cons_append, matchFront?] at h'
        rw [matchFront?] at h
        split at h
        · next hsame =>
          split at h'
          · next hsame' =>
            obtain ⟨inner, hinner, -⟩ := Option.map_eq_some_iff.1 h
            obtain ⟨inner', hinner', -⟩ := Option.map_eq_some_iff.1 h'
            have hboth : sameFold c e = true := by
              rw [sameFold, beq_iff_eq] at hsame hsame' ⊢
              exact hsame.trans hsame'.symm
            rw [matchFront?, if_pos hboth, Option.isSome_map]
            exact ih hinner hinner' (Nat.le_of_succ_le_succ hlength)
          · cases h'
        · cases h

theorem toNat_lt_of_toLower {c : Char} (h : c.toLower.toNat < 128) : c.toNat < 128 := by
  unfold Char.toLower at h
  split at h
  · next hupper =>
    have hle : c.val ≤ 'Z'.val := hupper.2
    exact Nat.lt_of_le_of_lt (UInt32.le_iff_toNat_le.1 hle) (by decide)
  · exact h

/-- A text matches what it is in small letters. -/
theorem matchFront?_of_toLower {chunk : Text} (h : chunk.map Char.toLower = pattern)
    (hascii : pattern.all (fun c => c.toNat < 128 && c.toLower == c) = true) :
    matchFront? pattern chunk = some (chunk, []) := by
  subst h
  induction chunk with
  | nil => rfl
  | cons c chunk ih =>
    rw [List.map_cons, List.all_cons, Bool.and_eq_true, Bool.and_eq_true, decide_eq_true_eq]
      at hascii
    obtain ⟨⟨hsmall, hlower⟩, hchunk⟩ := hascii
    have hfold : sameFold c.toLower c = true := by
      rw [sameFold_ascii hsmall (toNat_lt_of_toLower hsmall), eq_of_beq hlower]
      exact beq_self_eq_true _
    rw [List.map_cons, matchFront?, if_pos hfold, ih hchunk]
    rfl

/-- What is trimmed away at the end of a text is blank. -/
theorem Text.trimBack_append (t : Text) :
    ∃ blanks, isBlankText blanks = true ∧ trimBack t ++ blanks = t := by
  induction t with
  | nil => exact ⟨[], rfl, rfl⟩
  | cons c t ih =>
    obtain ⟨blanks, hblanks, happend⟩ := ih
    rw [trimBack]
    cases htrimmed : trimBack t with
    | cons d u =>
      rw [htrimmed] at happend
      exact ⟨blanks, hblanks, congrArg (c :: ·) happend⟩
    | nil =>
      rw [htrimmed] at happend
      have hblank : blanks = t := happend
      subst hblank
      by_cases hc : isBlank c = true
      · exact ⟨c :: blanks, Bool.and_eq_true_iff.2 ⟨hc, hblanks⟩, by simp [hc]⟩
      · exact ⟨blanks, hblanks, by simp [hc]⟩

theorem Text.trimBack_isPrefix (t : Text) : trimBack t <+: t := by
  obtain ⟨blanks, -, happend⟩ := trimBack_append t
  exact ⟨blanks, happend⟩

/-- What is trimmed away at the ends of a text is blank. -/
theorem Text.trim_append (t : Text) :
    ∃ front back, isBlankText front = true ∧ isBlankText back = true ∧
      front ++ trim t ++ back = t := by
  obtain ⟨back, hback, happend⟩ := trimBack_append (trimFront t)
  refine ⟨t.takeWhile isBlank, back, List.all_takeWhile, hback, ?_⟩
  rw [List.append_assoc, trim, happend]
  exact List.takeWhile_append_dropWhile

theorem Text.trimFront_append {t : Text} (h : trimFront t ≠ []) (k : Text) :
    trimFront (t ++ k) = trimFront t ++ k := by
  induction t with
  | nil => exact absurd rfl h
  | cons c t ih =>
    by_cases hc : isBlank c = true
    · have hskip (u : Text) : trimFront (c :: u) = trimFront u :=
        List.dropWhile_cons_of_pos hc
      rw [hskip] at h
      rw [List.cons_append, hskip, hskip, ih h]
    · have hself (u : Text) : trimFront (c :: u) = c :: u := List.dropWhile_cons_of_neg hc
      rw [List.cons_append, hself, hself, List.cons_append]

theorem Text.trimFront_blanks_append {blanks : Text} (h : isBlankText blanks = true)
    (t : Text) : trimFront (blanks ++ t) = trimFront t :=
  List.dropWhile_append_of_pos (List.all_eq_true.1 h)

/-- A text without the blanks at its ends stands at the beginning of any text
it begins, blanks apart. -/
theorem Text.trim_isPrefix_append (t k : Text) : trim t <+: trimFront (t ++ k) := by
  by_cases hnil : trimFront t = []
  · rw [trim, hnil]
    exact List.nil_prefix
  · rw [trimFront_append hnil]
    exact (trimBack_isPrefix _).trans (List.prefix_append _ _)

namespace StopSet

variable {labels : ClassLabels} {stop : StopSet}

-- ============================================================ appended text

/-- All delimiters, where the classes have the names that they have
everywhere. -/
def canonical (stop : StopSet) : List Text :=
  stop.marks ++ stop.leadingMarks canonicalLabels ++ stop.bars

theorem anywhere_subset_canonical (stop : StopSet) : stop.anywhere ⊆ stop.canonical := by
  intro mark hmark
  rw [canonical, List.append_assoc, List.mem_append]
  rcases List.mem_append.1 hmark with hmark | hmark
  · exact .inl hmark
  · exact .inr (List.mem_append_right _ hmark)

/-- Between the first and the last character of a delimiter, all is inert. -/
theorem isInert_of_mem_canonical {mark : Text} (h : mark ∈ stop.canonical) :
    ∀ c ∈ mark.tail.dropLast, isInert c = true := by
  have hall : stop.canonical.all (fun mark => mark.tail.dropLast.all isInert) = true := by
    cases stop <;> decide +kernel
  exact List.all_eq_true.1 (List.all_eq_true.1 hall mark h)

/-- The only delimiter that is the beginning of a longer one is a bar. -/
theorem length_of_matchFront?_canonical {short long : Text} (hshort : short ∈ stop.canonical)
    (hlong : long ∈ stop.canonical) (h : (matchFront? short long).isSome = true)
    (hlength : short.length < long.length) : short.length = 1 ∧ long.length = 2 := by
  have hall : ∀ short ∈ stop.canonical, ∀ long ∈ stop.canonical,
      (matchFront? short long).isSome = true → short.length < long.length →
      short.length = 1 ∧ long.length = 2 := by
    cases stop <;> decide +kernel
  exact hall short hshort long hlong h hlength

variable {delimiters : List Text}

/-- A delimiter that is found is found with text behind it too, unless it is a
bar at the end that could become two. -/
theorem firstDelimiter?_append_some (hsubset : delimiters ⊆ stop.canonical)
    (h : firstDelimiter? delimiters t = some parts)
    (hsettled : parts.2 ≠ [] ∨ 1 < parts.1.length) (k : Text) :
    firstDelimiter? delimiters (t ++ k) = some (parts.1, parts.2 ++ k) := by
  obtain ⟨before, mark, after, rfl, hmark, hbefore⟩ := List.findSome?_eq_some_iff.1 h
  have hearlier : ∀ other ∈ before, matchFront? other (t ++ k) = none := by
    intro other hother
    cases hmatch : matchFront? other (t ++ k) with
    | none => rfl
    | some found =>
      obtain ⟨hshort, -⟩ := sameFold_of_matchFront?_append (hbefore other hother) hmatch
      have hlength := length_of_matchFront? hmark
      have htext := congrArg List.length (append_of_matchFront? hmark)
      rw [List.length_append] at htext
      have hprefix := matchFront?_of_matchFront? hmark hmatch (by omega)
      obtain ⟨hone, htwo⟩ := length_of_matchFront?_canonical
        (hsubset (List.mem_append_right _ List.mem_cons_self))
        (hsubset (List.mem_append_left _ hother)) hprefix (by omega)
      rcases hsettled with hrest | hlong
      · have hpos := List.length_pos_iff.2 hrest
        omega
      · omega
  rw [firstDelimiter?, List.findSome?_append, List.findSome?_eq_none_iff.2 hearlier]
  rw [Option.none_or, List.findSome?_cons, matchFront?_append hmark]

/-- Where a delimiter is only found with text behind it, what is there of it is
inert but for its first character. -/
theorem isInert_of_firstDelimiter?_append (hsubset : delimiters ⊆ stop.canonical)
    (hnone : firstDelimiter? delimiters t = none)
    (hsome : firstDelimiter? delimiters (t ++ k) ≠ none) : ∀ c ∈ t.tail, isInert c = true := by
  obtain ⟨found, hfound⟩ := Option.ne_none_iff_exists'.1 hsome
  obtain ⟨mark, hmark, hmatch⟩ := List.exists_of_findSome?_eq_some hfound
  have hmissing := List.findSome?_eq_none_iff.1 hnone mark hmark
  cases t with
  | nil => exact fun c hc => nomatch hc
  | cons d t =>
    cases mark with
    | nil => cases hmissing
    | cons c mark =>
      rw [List.cons_append, matchFront?] at hmatch
      rw [matchFront?] at hmissing
      split at hmatch
      · next hsame =>
        rw [if_pos hsame] at hmissing
        obtain ⟨inner, hinner, -⟩ := Option.map_eq_some_iff.1 hmatch
        obtain ⟨-, hfold⟩ :=
          sameFold_of_matchFront?_append (Option.map_eq_none_iff.1 hmissing) hinner
        intro e he
        obtain ⟨f, hf, hfe⟩ := hfold e he
        rw [isInert_of_sameFold hfe]
        exact isInert_of_mem_canonical (hsubset hmark) f hf
      · cases hmatch

theorem splitBefore_of_isInert_tail (hnone : stop.delimiter? labels false t = none)
    (h : ∀ c ∈ (Text.trimFront t).tail, isInert c = true) :
    (stop.splitBefore labels t).2 = [] := by
  induction t with
  | nil => rfl
  | cons c t ih =>
    rw [splitBefore, hnone]
    by_cases hc : isBlank c = true
    · have hskip : Text.trimFront (c :: t) = Text.trimFront t := List.dropWhile_cons_of_pos hc
      rw [hskip] at h
      rw [delimiter?_false, hskip, ← delimiter?_false labels] at hnone
      exact ih hnone h
    · have hself : Text.trimFront (c :: t) = c :: t := List.dropWhile_cons_of_neg hc
      rw [hself] at h
      exact congrArg Prod.snd (splitBefore_of_isInert h)

/-- The delimiters that count where a text begins. -/
def candidates (stop : StopSet) (start : Bool) (t : Text) : List Text :=
  if start = true ∧ Text.trimFront t = t then stop.canonical else stop.anywhere

theorem candidates_subset (stop : StopSet) (start : Bool) (t : Text) :
    stop.candidates start t ⊆ stop.canonical := by
  unfold candidates
  split
  · exact List.Subset.refl _
  · exact anywhere_subset_canonical stop

/-- Behind blanks, the name of a class is no delimiter. -/
theorem delimiter?_eq (stop : StopSet) (start : Bool) (t : Text) :
    stop.delimiter? canonicalLabels start t =
      firstDelimiter? (stop.candidates start t) (Text.trimFront t) := by
  cases start with
  | false =>
    rw [delimiter?_false, candidates, if_neg fun h => Bool.false_ne_true h.1]
  | true =>
    by_cases hself : Text.trimFront t = t
    · rw [candidates, if_pos ⟨rfl, hself⟩, delimiter?_true _ _ hself, hself, canonical]
    · rw [candidates, if_neg fun h => hself h.2]
      have hleading : firstDelimiter? (stop.leadingMarks canonicalLabels) t = none := by
        refine leadingMarks_of_head (fun c hc => sameFold_of_isBlank ?_) stop
        cases t with
        | nil => cases hc
        | cons d t =>
          cases hc
          cases hblank : isBlank c with
          | true => rfl
          | false =>
            have hhead : ¬ isBlank c = true := by rw [hblank]; exact Bool.false_ne_true
            exact absurd (List.dropWhile_cons_of_neg hhead) hself
      cases hfound : firstDelimiter? stop.anywhere (Text.trimFront t) with
      | none => exact delimiter?_start_eq_none hfound hleading
      | some found => exact delimiter?_of_anywhere hfound hleading true

theorem candidates_append (start : Bool) (h : Text.trimFront t ≠ []) (k : Text) :
    stop.candidates start (t ++ k) = stop.candidates start t := by
  unfold candidates
  simp only [Text.trimFront_append h, List.append_left_inj]

theorem delimiter?_append_some {start : Bool}
    (h : stop.delimiter? canonicalLabels start t = some parts)
    (hsettled : parts.2 ≠ [] ∨ 1 < parts.1.length) (k : Text) :
    stop.delimiter? canonicalLabels start (t ++ k) = some (parts.1, parts.2 ++ k) := by
  rw [delimiter?_eq] at h ⊢
  have hne : Text.trimFront t ≠ [] := by
    intro hnil
    rw [hnil] at h
    have hlength := congrArg List.length (append_of_firstDelimiter? h)
    rw [List.length_append, List.length_nil] at hlength
    rcases hsettled with hrest | hlong
    · have hpos := List.length_pos_iff.2 hrest
      omega
    · omega
  rw [candidates_append start hne, Text.trimFront_append hne]
  exact firstDelimiter?_append_some (candidates_subset stop start t) h hsettled k

/-- In a text that is cut somewhere, no delimiter turns up in front of that
place when text is appended. -/
theorem delimiter?_append_none {start : Bool}
    (h : stop.delimiter? canonicalLabels start t = none)
    (hrest : (stop.splitBefore canonicalLabels t).2 ≠ []) (k : Text) :
    stop.delimiter? canonicalLabels start (t ++ k) = none := by
  have hfalse : stop.delimiter? canonicalLabels false t = none := by
    cases start with
    | false => exact h
    | true => exact delimiter?_start h
  have hne : Text.trimFront t ≠ [] := by
    intro hnil
    rw [splitBefore_of_isBlankText (Text.trimFront_eq_nil_iff.1 hnil)] at hrest
    exact hrest rfl
  rw [delimiter?_eq, candidates_append start hne, Text.trimFront_append hne]
  rw [delimiter?_eq] at h
  cases hsome : firstDelimiter? (stop.candidates start t) (Text.trimFront t ++ k) with
  | none => rfl
  | some found =>
    have hinert := isInert_of_firstDelimiter?_append (candidates_subset stop start t) h
      (Option.ne_none_iff_exists'.2 ⟨found, hsome⟩)
    exact absurd (splitBefore_of_isInert_tail hfalse hinert) hrest

theorem splitBefore_append_of_ne_nil (h : (stop.splitBefore canonicalLabels t).2 ≠ [])
    (k : Text) :
    stop.splitBefore canonicalLabels (t ++ k) =
      ((stop.splitBefore canonicalLabels t).1, (stop.splitBefore canonicalLabels t).2 ++ k) := by
  induction t with
  | nil => exact absurd rfl h
  | cons c t ih =>
    cases hfound : stop.delimiter? canonicalLabels false (c :: t) with
    | some found =>
      have hne : Text.trimFront (c :: t) ≠ [] := by
        rw [splitBefore, hfound] at h
        exact h
      have hmore : (firstDelimiter? stop.anywhere
          (Text.trimFront (c :: (t ++ k)))).isSome = true := by
        rw [delimiter?_false] at hfound
        obtain ⟨mark, hmark, hmatch⟩ := List.exists_of_findSome?_eq_some hfound
        rw [← List.cons_append, Text.trimFront_append hne, firstDelimiter?,
          List.findSome?_isSome_iff]
        exact ⟨mark, hmark, by rw [matchFront?_append hmatch]; rfl⟩
      rw [List.cons_append, splitBefore_delimiter hmore, splitBefore, hfound, ← List.cons_append,
        Text.trimFront_append hne]
    | none =>
      have hlater : (stop.splitBefore canonicalLabels t).2 ≠ [] := by
        rw [splitBefore, hfound] at h
        exact h
      have hnone := delimiter?_append_none hfound h k
      rw [List.cons_append] at hnone ⊢
      rw [splitBefore, hnone, splitBefore, hfound, ih hlater]

/-- **A cut does not look beyond its delimiter.** If text is left behind a cut,
or the cut took a delimiter of more than one character, then the same chunk is
cut off with any text appended, which stays where it is. -/
theorem cut_append (h : (stop.cut canonicalLabels t).rest ≠ [] ∨
      ∃ parts, stop.delimiter? canonicalLabels true t = some parts ∧ 1 < parts.1.length)
    (k : Text) :
    stop.cut canonicalLabels (t ++ k) =
      ⟨(stop.cut canonicalLabels t).chunk, (stop.cut canonicalLabels t).rest ++ k⟩ := by
  cases hfound : stop.delimiter? canonicalLabels true t with
  | some parts =>
    have hsettled : parts.2 ≠ [] ∨ 1 < parts.1.length := by
      rcases h with hrest | ⟨other, hother, hlong⟩
      · rw [cut, hfound] at hrest
        exact .inl hrest
      · rw [hfound] at hother
        cases hother
        exact .inr hlong
    rw [cut, delimiter?_append_some hfound hsettled, cut, hfound]
  | none =>
    have hrest : (stop.splitBefore canonicalLabels t).2 ≠ [] := by
      rcases h with hrest | ⟨other, hother, -⟩
      · rw [cut, hfound] at hrest
        exact hrest
      · rw [hfound] at hother
        cases hother
    rw [cut, delimiter?_append_none hfound hrest, splitBefore_append_of_ne_nil hrest, cut, hfound]

-- ============================================================ marks cut off

theorem splitBefore_isPrefix (labels : ClassLabels) (stop : StopSet) (t : Text) :
    (stop.splitBefore labels t).1 <+: t := by
  induction t with
  | nil => exact List.prefix_rfl
  | cons c t ih =>
    rw [splitBefore]
    split
    · exact List.nil_prefix
    · exact (List.prefix_cons_inj c).2 ih

/-- A text begins with the chunk that is cut off it, blanks apart. -/
theorem trim_chunk_isPrefix (labels : ClassLabels) (stop : StopSet) (t : Text) :
    Text.trim (stop.cut labels t).chunk <+: Text.trimFront t := by
  cases hdelimiter : stop.delimiter? labels true t with
  | none =>
    have hchunk : (stop.cut labels t).chunk = (stop.splitBefore labels t).1 := by
      rw [cut, hdelimiter]
    obtain ⟨behind, hbehind⟩ := splitBefore_isPrefix labels stop t
    have hfront := Text.trim_isPrefix_append (stop.splitBefore labels t).1 behind
    rwa [hbehind, ← hchunk] at hfront
  | some parts =>
    have hchunk : (stop.cut labels t).chunk = parts.1 := by rw [cut, hdelimiter]
    obtain ⟨blanks, hblanks, happend⟩ := append_of_delimiter? hdelimiter
    rw [hchunk, ← happend, List.append_assoc, Text.trimFront_blanks_append hblanks]
    exact Text.trim_isPrefix_append _ parts.2

/-- A chunk that begins with a delimiter was cut off as one. -/
theorem delimiter?_of_chunk {mark : Text} (hmark : mark ∈ stop.anywhere)
    (hlong : 1 < mark.length)
    (h : (matchFront? mark (Text.trim (stop.cut labels t).chunk)).isSome = true) :
    ∃ parts, stop.delimiter? labels true t = some parts ∧ 1 < parts.1.length := by
  obtain ⟨found, hfound⟩ := Option.isSome_iff_exists.1 h
  cases hdelimiter : stop.delimiter? labels true t with
  | some parts =>
    have hlength := length_of_matchFront? hfound
    have hchunk : (stop.cut labels t).chunk = parts.1 := by rw [cut, hdelimiter]
    have hle := Nat.le_trans (Text.trimBack_isPrefix _).length_le
      (Text.trimFront_length_le (stop.cut labels t).chunk)
    have htrimmed := congrArg List.length (append_of_matchFront? hfound)
    rw [List.length_append, Text.trim] at htrimmed
    rw [hchunk] at hle htrimmed
    exact ⟨parts, rfl, by omega⟩
  | none =>
    -- the text would begin with the delimiter, blanks apart
    exfalso
    obtain ⟨behind, hbehind⟩ := trim_chunk_isPrefix labels stop t
    have hmatch := matchFront?_append hfound behind
    have hnone := delimiter?_start hdelimiter
    rw [delimiter?_false, ← hbehind] at hnone
    rw [List.findSome?_eq_none_iff.1 hnone mark hmark] at hmatch
    cases hmatch

end StopSet

namespace Token

variable {chunk : Text}

/-- The token is a delimiter of more than one character. -/
def IsMark : Token → Prop
  | openAtom | closeAtom | separator | openQuery | closeQuery | bars => True
  | _ => False

theorem exists_mark (h : (ofChunk chunk).IsMark) :
    ∃ mark ∈ StopSet.all.anywhere, 1 < mark.length ∧ (matchFront? mark chunk).isSome = true := by
  have hspells := spells_ofChunk chunk
  cases htoken : ofChunk chunk with
  | openAtom =>
    rw [htoken] at hspells
    have hchunk : chunk = ['[', '['] := hspells
    exact ⟨['[', '['], by decide, by decide, by rw [hchunk]; rfl⟩
  | closeAtom =>
    rw [htoken] at hspells
    have hchunk : chunk = [']', ']'] := hspells
    exact ⟨[']', ']'], by decide, by decide, by rw [hchunk]; rfl⟩
  | separator =>
    rw [htoken] at hspells
    rcases hspells with heq | heq
    · exact ⟨[':', ':'], by decide, by decide, by rw [heq]; rfl⟩
    · exact ⟨[':', '='], by decide, by decide, by rw [heq]; rfl⟩
  | bars =>
    rw [htoken] at hspells
    have hchunk : chunk = ['|', '|'] := hspells
    exact ⟨['|', '|'], by decide, by decide, by rw [hchunk]; rfl⟩
  | openQuery =>
    rw [htoken] at hspells
    refine ⟨['<', 'q', '>'], by decide, by decide, ?_⟩
    rw [matchFront?_of_toLower hspells rfl]
    rfl
  | closeQuery =>
    rw [htoken] at hspells
    refine ⟨['<', '/', 'q', '>'], by decide, by decide, ?_⟩
    rw [matchFront?_of_toLower hspells rfl]
    rfl
  | _ =>
    rw [htoken] at h
    exact h.elim

end Token

end InlineQuery
