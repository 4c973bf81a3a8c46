/-
Names that mean the same wherever they are written.

Titles, texts and property labels are taken to be words of letters, digits
and dots, with single spaces between them and a capital letter in front. A
reader of such a name finds no delimiter in it, nothing to trim away and
nothing to normalize, whatever stands behind it.
-/
import InlineQuery.Item
import InlineQuery.Property
import InlineQuery.Chunk.Delimiter
import InlineQuery.Proofs.Titles.UpperCase

namespace InlineQuery

-- ============================================================== characters

/-- The letters and digits of ASCII, and the dot. -/
def isNameChar (c : Char) : Bool := c.isAlphanum || c == '.'

theorem isNameChar_eq (c : Char) :
    isNameChar c = (c.isUpper || c.isLower || c.isDigit || c == '.') := rfl

theorem toNat_lt_of_isNameChar {c : Char} (h : isNameChar c = true) : c.toNat < 128 := by
  have hle {d : Char} (hd : d.toNat < 128) (h : c.val ≤ d.val) : c.toNat < 128 :=
    Nat.lt_of_le_of_lt (UInt32.le_iff_toNat_le.1 h) hd
  rw [isNameChar_eq, Bool.or_eq_true, Bool.or_eq_true, Bool.or_eq_true, beq_iff_eq] at h
  rcases h with ((h | h) | h) | h
  · have hupper : c.val ≥ 'A'.val ∧ c.val ≤ 'Z'.val := of_decide_eq_true h
    exact hle (by decide) hupper.2
  · exact hle (d := 'z') (by decide) (of_decide_eq_true (Bool.and_eq_true_iff.1 h).2)
  · exact hle (d := '9') (by decide) (of_decide_eq_true (Bool.and_eq_true_iff.1 h).2)
  · rw [h]
    decide

/-- What holds of the first code points holds of every ASCII character. -/
theorem forall_ascii {P : Char → Prop} (h : ∀ n < 128, P (Char.ofNat n)) {c : Char}
    (hc : c.toNat < 128) : P c := by
  have := h c.toNat hc
  rwa [Char.ofNat_toNat] at this

/-- What holds of the name characters among the first code points holds of
all of them. -/
theorem forall_isNameChar {P : Char → Prop}
    (h : ∀ n < 128, isNameChar (Char.ofNat n) = true → P (Char.ofNat n)) {c : Char}
    (hc : isNameChar c = true) : P c :=
  forall_ascii (P := fun c => isNameChar c = true → P c) h (toNat_lt_of_isNameChar hc) hc

/-- None of some characters that names do not have in them. -/
theorem not_mem_of_isNameChar {c : Char} (hc : isNameChar c = true) {others : List Char}
    (h : others.any isNameChar = false) : c ∉ others :=
  fun hmem => List.any_eq_false.1 h c hmem hc

theorem isNameChar_toLower {c : Char} (h : isNameChar c = true) : isNameChar c.toLower = true :=
  forall_isNameChar (P := fun c => isNameChar c.toLower = true) (by decide +kernel) h

theorem isBlank_of_isNameChar {c : Char} (h : isNameChar c = true) : isBlank c = false :=
  forall_isNameChar (P := fun c => isBlank c = false) (by decide +kernel) h

/-- Folding the case of an ASCII character makes a small letter of it. -/
theorem foldCode_ascii {c : Char} (h : c.toNat < 128) : foldCode c = c.toLower.toNat := by
  have hlater : ∀ run ∈ foldRuns.tail, 128 ≤ run.first := by decide +kernel
  have hnone : (foldRuns.tail.find? fun run => run.covers c.toNat) = none := by
    rw [List.find?_eq_none]
    intro run hrun
    have := hlater run hrun
    simp only [CaseRun.covers, Bool.and_eq_true, decide_eq_true_eq]
    omega
  -- only the run of the capital letters is left
  have hcapitals : foldRuns = [⟨0x41, 0x5a, 1, 32⟩] ++ foldRuns.tail := rfl
  have hfirst : CaseRun.mapCode [⟨0x41, 0x5a, 1, 32⟩] c.toNat = c.toLower.toNat :=
    forall_ascii (P := fun c => CaseRun.mapCode [⟨0x41, 0x5a, 1, 32⟩] c.toNat = c.toLower.toNat)
      (by decide +kernel) h
  rw [← hfirst, foldCode, CaseRun.mapCode, CaseRun.mapCode, hcapitals, List.find?_append, hnone,
    Option.or_none]

theorem sameFold_ascii {c d : Char} (hc : c.toNat < 128) (hd : d.toNat < 128) :
    sameFold c d = (c.toLower == d.toLower) := by
  rw [sameFold, foldCode_ascii hc, foldCode_ascii hd, Bool.eq_iff_iff]
  rw [beq_iff_eq, beq_iff_eq]
  exact Char.toNat_inj

/-- Case apart, a character of names is none of the others. -/
theorem sameFold_of_isNameChar {c d : Char} (hc : isNameChar c = true)
    (hd : d.toNat < 128 ∧ isNameChar d = false) : sameFold d c = false := by
  have hself : isNameChar d = false → d.toLower = d :=
    forall_ascii (P := fun d => isNameChar d = false → d.toLower = d) (by decide +kernel) hd.1
  rw [sameFold_ascii hd.1 (toNat_lt_of_isNameChar hc), hself hd.2, beq_eq_false_iff_ne]
  rintro rfl
  have := isNameChar_toLower hc
  rw [hd.2] at this
  cases this

/-- The character is the same in every case: it is folded to itself, and lies
outside of what any run is folded to. -/
def isCaseless (c : Char) : Bool :=
  foldCode c == c.toNat && foldRuns.all fun run =>
    decide (c.toNat < run.image run.first ∨ run.image run.last < c.toNat)

/-- Such a character is matched by nothing but itself. -/
theorem eq_of_sameFold {c d : Char} (hc : isCaseless c = true) (h : sameFold c d = true) :
    d = c := by
  obtain ⟨hself, hruns⟩ := Bool.and_eq_true_iff.1 hc
  have hfold : foldCode d = c.toNat := (eq_of_beq h).symm.trans (eq_of_beq hself)
  rcases CaseRun.mapCode_cases foldRuns d.toNat with hself | ⟨run, hrun, hcovers, himage⟩
  · exact Char.toNat_inj.1 (hself.symm.trans hfold)
  · exfalso
    have himage : run.image d.toNat = c.toNat := himage.symm.trans hfold
    have hoff := of_decide_eq_true (List.all_eq_true.1 hruns run hrun)
    obtain ⟨hfirst, hlast, -⟩ := CaseRun.covers_iff.1 hcovers
    simp only [CaseRun.image] at himage hoff
    omega

/-- No delimiter that counts anywhere begins with the character. -/
def isInert (c : Char) : Bool := ['[', ']', ':', '<', '|'].all fun d => !sameFold d c

theorem sameFold_of_isInert {c d : Char} (hc : isInert c = true)
    (hd : d ∈ ['[', ']', ':', '<', '|']) : sameFold d c = false := by
  simpa using List.all_eq_true.1 hc d hd

theorem isInert_of_isNameChar {c : Char} (h : isNameChar c = true) : isInert c = true := by
  have hmarks : ['[', ']', ':', '<', '|'].all
      (fun d => decide (d.toNat < 128) && !isNameChar d) = true := by
    decide
  rw [isInert, List.all_eq_true]
  intro d hd
  have hother := List.all_eq_true.1 hmarks d hd
  rw [sameFold_of_isNameChar h (by simpa using hother)]
  rfl

-- =================================================================== names

/-- The last character of two texts is that of the second, if it has one. -/
theorem Text.mem_getLast?_of_append {u v : Text} (hv : v ≠ []) {c : Char}
    (hc : c ∈ (u ++ v).getLast?) : c ∈ v.getLast? := by
  rw [List.getLast?_append, List.getLast?_eq_some_getLast hv] at hc
  rw [List.getLast?_eq_some_getLast hv]
  exact hc

/-- Words of name characters, with single spaces between them. -/
inductive Spaced : Text → Prop
  | word {w : Text} : w ≠ [] → (∀ c ∈ w, isNameChar c = true) → Spaced w
  | more {w t : Text} : w ≠ [] → (∀ c ∈ w, isNameChar c = true) → Spaced t → Spaced (w ++ ' ' :: t)

/-- Words that begin with a capital letter. -/
structure IsName (t : Text) : Prop where
  spaced : Spaced t
  capital : ∃ c ∈ t.head?, c.isUpper = true

namespace Spaced

variable {t : Text}

/-- A single word, as it can be checked. -/
theorem of_all {w : Text} (h : w ≠ [] ∧ w.all isNameChar = true) : Spaced w :=
  .word h.1 (List.all_eq_true.1 h.2)

theorem ne_nil (h : Spaced t) : t ≠ [] := by
  cases h with
  | word hw _ => exact hw
  | more hw _ _ => exact List.append_ne_nil_of_left_ne_nil hw _

theorem isNameChar_or_eq_space (h : Spaced t) : ∀ c ∈ t, isNameChar c = true ∨ c = ' ' := by
  induction h with
  | word _ hw => exact fun c hc => .inl (hw c hc)
  | more _ hw _ ih =>
    intro c hc
    rcases List.mem_append.1 hc with hc | hc
    · exact .inl (hw c hc)
    · rcases List.mem_cons.1 hc with rfl | hc
      · exact .inr rfl
      · exact ih c hc

theorem not_mem (h : Spaced t) {c : Char} (hc : isNameChar c = false) (hspace : c ≠ ' ') :
    c ∉ t := by
  intro hmem
  rcases h.isNameChar_or_eq_space c hmem with h | h
  · rw [h] at hc
    cases hc
  · exact hspace h

theorem head_isNameChar (h : Spaced t) : ∀ c ∈ t.head?, isNameChar c = true := by
  have hword {w u : Text} (hne : w ≠ []) (hw : ∀ c ∈ w, isNameChar c = true) :
      ∀ c ∈ (w ++ u).head?, isNameChar c = true := by
    intro c hc
    cases w with
    | nil => exact absurd rfl hne
    | cons d w =>
      rw [List.cons_append, List.head?_cons, Option.mem_some_iff] at hc
      exact hw c (by rw [hc]; exact List.mem_cons_self)
  cases h with
  | word hne hw => simpa using hword (u := []) hne hw
  | more hne hw _ => exact hword hne hw

theorem last_isNameChar (h : Spaced t) : ∀ c ∈ t.getLast?, isNameChar c = true := by
  induction h with
  | word _ hw => exact fun c hc => hw c (List.mem_of_getLast? hc)
  | more _ _ ht ih =>
    intro c hc
    have hlast := Text.mem_getLast?_of_append (List.cons_ne_nil _ _) hc
    rw [List.getLast?_cons_of_ne_nil ht.ne_nil] at hlast
    exact ih c hlast

end Spaced

theorem Spaced.sameFold_colon {t : Text} (h : Spaced t) : ∀ c ∈ t, sameFold ':' c = false := by
  intro c hc
  rcases h.isNameChar_or_eq_space c hc with hname | rfl
  · exact sameFold_of_isNameChar hname (by decide)
  · decide +kernel

-- ================================================================ trimming

namespace Text

theorem trimFront_eq_self {t : Text} (h : ∀ c ∈ t.head?, isBlank c = false) :
    trimFront t = t := by
  cases t with
  | nil => rfl
  | cons c t =>
    rw [trimFront, List.dropWhile_cons_of_neg]
    rw [h c rfl]
    exact Bool.false_ne_true

theorem trimBack_concat {t : Text} {c : Char} (h : isBlank c = false) :
    trimBack (t ++ [c]) = t ++ [c] := by
  induction t with
  | nil => simp [trimBack, h]
  | cons d t ih =>
    rw [List.cons_append, trimBack, ih]
    cases t with
    | nil => rfl
    | cons e t => rfl

/-- A text without blanks at its ends is what trimming leaves of it. -/
theorem trim_eq_self {t : Text} (hfirst : ∀ c ∈ t.head?, isBlank c = false)
    (hlast : ∀ c ∈ t.getLast?, isBlank c = false) : trim t = t := by
  rw [trim, trimFront_eq_self hfirst]
  cases hcase : t.getLast? with
  | none =>
    rw [List.getLast?_eq_none_iff.1 hcase]
    rfl
  | some c =>
    obtain ⟨front, rfl⟩ := List.getLast?_eq_some_iff.1 hcase
    exact trimBack_concat (hlast c hcase)

theorem trim_space (t : Text) : trim (' ' :: t) = trim t := by
  rw [trim, trimFront, List.dropWhile_cons_of_pos isBlank_space]
  rfl

/-- A character that is no blank begins a word, unless a word follows. -/
theorem words_cons_cons {c d : Char} {t word : Text} {rest : List Text} (hc : isBlank c = false)
    (hd : isBlank d = false) (h : words (d :: t) = word :: rest) :
    words (c :: d :: t) = (c :: word) :: rest := by
  conv => lhs; unfold words
  simp [hc, hd, h]

theorem words_cons_space {c : Char} (hc : isBlank c = false) (t : Text) :
    words (c :: ' ' :: t) = [c] :: words t := by
  have hspace : words (' ' :: t) = words t := by
    conv => lhs; unfold words
    exact if_pos isBlank_space
  conv => lhs; unfold words
  rw [hspace]
  cases words t with
  | nil => simp [hc]
  | cons word rest => simp [hc, isBlank_space]

theorem words_word {w : Text} (hne : w ≠ []) (hw : ∀ c ∈ w, isBlank c = false) :
    words w = [w] := by
  induction w with
  | nil => exact absurd rfl hne
  | cons c w ih =>
    have hc := hw c List.mem_cons_self
    cases w with
    | nil => simp [words, hc]
    | cons d w =>
      have hd := hw d (List.mem_cons_of_mem c List.mem_cons_self)
      exact words_cons_cons hc hd
        (ih (List.cons_ne_nil d w) fun e he => hw e (List.mem_cons_of_mem c he))

theorem words_append_space {w : Text} (hne : w ≠ []) (hw : ∀ c ∈ w, isBlank c = false)
    (t : Text) : words (w ++ ' ' :: t) = w :: words t := by
  induction w with
  | nil => exact absurd rfl hne
  | cons c w ih =>
    have hc := hw c List.mem_cons_self
    cases w with
    | nil => exact words_cons_space hc t
    | cons d w =>
      have hd := hw d (List.mem_cons_of_mem c List.mem_cons_self)
      exact words_cons_cons hc hd
        (ih (List.cons_ne_nil d w) fun e he => hw e (List.mem_cons_of_mem c he))

end Text

-- ========================================================== normalization

namespace Spaced

variable {t : Text}

theorem join_words (h : Spaced t) : Text.join [' '] (Text.words t) = t := by
  induction h with
  | word hne hw =>
    rw [Text.words_word hne fun c hc => isBlank_of_isNameChar (hw c hc)]
    rfl
  | more hne hw ht ih =>
    rw [Text.words_append_space hne fun c hc => isBlank_of_isNameChar (hw c hc)]
    cases hwords : Text.words _ with
    | nil =>
      rw [hwords] at ih
      exact absurd ih.symm ht.ne_nil
    | cons word rest =>
      rw [hwords] at ih
      rw [Text.join, ih, List.append_assoc]
      rfl

theorem trim_eq_self (h : Spaced t) : Text.trim t = t :=
  Text.trim_eq_self (fun c hc => isBlank_of_isNameChar (h.head_isNameChar c hc))
    (fun c hc => isBlank_of_isNameChar (h.last_isNameChar c hc))

theorem spaceTitle_eq_self (h : Spaced t) : spaceTitle t = t := by
  have hreplace : Text.replace '_' ' ' t = t := by
    calc Text.replace '_' ' ' t
        = t.map id := List.map_congr_left fun c hc => if_neg fun hunderscore =>
          h.not_mem (by decide) (by decide) (hunderscore ▸ hc)
      _ = t := List.map_id t
  rw [spaceTitle, hreplace, h.join_words]

end Spaced

theorem upperCase_of_isUpper {c : Char} (h : c.isUpper = true) : upperCase c = [c] := by
  have hname : isNameChar c = true := by
    rw [isNameChar_eq, h]
    rfl
  exact forall_isNameChar (P := fun c => c.isUpper = true → upperCase c = [c])
    (by decide +kernel) hname h

namespace IsName

variable {t : Text}

theorem head_isUpper (h : IsName t) : ∃ c u, t = c :: u ∧ c.isUpper = true := by
  obtain ⟨c, hc, hupper⟩ := h.capital
  cases t with
  | nil => cases hc
  | cons d u =>
    cases hc
    exact ⟨_, _, rfl, hupper⟩

/-- A name is a title in its canonical spelling. -/
theorem normalizeTitle?_eq_self (h : IsName t) : normalizeTitle? true t = some t := by
  have hallowed : t.any (fun c => titleForbidden.contains c) = false := by
    rw [List.any_eq_false]
    intro c hc
    rcases h.spaced.isNameChar_or_eq_space c hc with hname | rfl
    · rw [List.contains_iff_mem]
      exact not_mem_of_isNameChar hname (by decide)
    · decide
  obtain ⟨c, u, rfl, hupper⟩ := h.head_isUpper
  rw [normalizeTitle?, h.spaced.spaceTitle_eq_self]
  simp only [hallowed, capitalize, upperCase_of_isUpper hupper]
  rfl

end IsName

end InlineQuery
