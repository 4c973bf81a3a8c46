/-
Every title has one spelling.

A text that `normalizeTitle?` accepts is one in which nothing is left to be
normalized (`isTitle_of_normalizeTitle?`, `normalizeTitle?_of_normalizeTitle?`).

# Words

A normalized title is a list of words with single spaces between them, and none
of the words has a blank, an underscore or a character of the link syntax in it
(`IsTitleWord`). From the joined words the same list is found again
(`words_join`). A capital letter in front changes the first word only: it
remains a word, even where the capital letter is written with several
characters, and the first of these is not changed once more.
-/
import InlineQuery.Proofs.Titles.UpperCase
import InlineQuery.Proofs.Writing.Names

namespace InlineQuery

/-- The text has the spelling of a title, the case of its first letter apart:
it is not empty, it has no underscore and no character of the link syntax, and
its only blanks are single spaces inside of it. -/
structure IsTitle (t : Text) : Prop where
  ne_nil : t ≠ []
  allowed : ∀ c ∈ t, c ∉ titleForbidden
  noUnderscore : '_' ∉ t
  space : ∀ c ∈ t, isBlank c = true → c = ' '
  head : ∀ c ∈ t.head?, c ≠ ' '
  last : ∀ c ∈ t.getLast?, c ≠ ' '
  single : ¬ [' ', ' '] <:+: t

/-- A word of a title. -/
structure IsTitleWord (w : Text) : Prop where
  ne_nil : w ≠ []
  titleChar : ∀ c ∈ w, isTitleChar c = true

theorem isTitleChar_iff {c : Char} :
    isTitleChar c = true ↔ isBlank c = false ∧ c ≠ '_' ∧ c ∉ titleForbidden := by
  simp [isTitleChar, and_assoc]

-- ==================================================================== words

namespace Text

/-- Words are not empty, and made of characters of the text that are not
blank. -/
theorem of_mem_words {t w : Text} (h : w ∈ words t) :
    w ≠ [] ∧ ∀ c ∈ w, c ∈ t ∧ isBlank c = false := by
  induction t generalizing w with
  | nil => cases h
  | cons c t ih =>
    have hlater {u : Text} (hu : u ∈ words t) :
        u ≠ [] ∧ ∀ d ∈ u, d ∈ c :: t ∧ isBlank d = false :=
      ⟨(ih hu).1, fun d hd => ⟨List.mem_cons_of_mem c ((ih hu).2 d hd).1, ((ih hu).2 d hd).2⟩⟩
    unfold words at h
    split at h
    · exact hlater h
    · next hc =>
      have hfirst : c ∈ c :: t ∧ isBlank c = false :=
        ⟨List.mem_cons_self, by simpa using hc⟩
      have hsingle : [c] ≠ [] ∧ ∀ d ∈ [c], d ∈ c :: t ∧ isBlank d = false :=
        ⟨List.cons_ne_nil c [], List.forall_mem_singleton.2 hfirst⟩
      split at h
      · next d u word rest hwords =>
        rw [hwords] at hlater
        split at h
        · rcases List.mem_cons.1 h with rfl | h
          · exact hsingle
          · exact hlater h
        · rcases List.mem_cons.1 h with rfl | h
          · refine ⟨List.cons_ne_nil c word, List.forall_mem_cons.2 ⟨hfirst, ?_⟩⟩
            exact (hlater List.mem_cons_self).2
          · exact hlater (List.mem_cons_of_mem word h)
      · rcases List.mem_cons.1 h with rfl | h
        · exact hsingle
        · exact hlater h

/-- A text that is not blank has words. -/
theorem words_ne_nil {t : Text} (h : ∃ c ∈ t, isBlank c = false) : words t ≠ [] := by
  induction t with
  | nil =>
    obtain ⟨c, hc, -⟩ := h
    cases hc
  | cons c t ih =>
    unfold words
    split
    · next hc =>
      obtain ⟨d, hd, hblank⟩ := h
      rcases List.mem_cons.1 hd with rfl | hd
      · rw [hblank] at hc
        cases hc
      · exact ih ⟨d, hd, hblank⟩
    · split
      · split <;> exact List.cons_ne_nil _ _
      · exact List.cons_ne_nil _ _

theorem mem_join {separator w : Text} {ws : List Text} (hw : w ∈ ws) {c : Char} (hc : c ∈ w) :
    c ∈ join separator ws := by
  induction ws with
  | nil => cases hw
  | cons v ws ih =>
    cases ws with
    | nil =>
      rw [List.mem_singleton.1 hw] at hc
      exact hc
    | cons u ws =>
      rw [join]
      rcases List.mem_cons.1 hw with rfl | hw
      · exact List.mem_append_left _ (List.mem_append_left _ hc)
      · exact List.mem_append_right _ (ih hw)

/-- Words that are joined with spaces are the words of the result. -/
theorem words_join {ws : List Text} (h : ∀ w ∈ ws, w ≠ [] ∧ ∀ c ∈ w, isBlank c = false) :
    words (join [' '] ws) = ws := by
  induction ws with
  | nil => rfl
  | cons w ws ih =>
    obtain ⟨⟨hne, hw⟩, hws⟩ := List.forall_mem_cons.1 h
    cases ws with
    | nil => exact words_word hne hw
    | cons u ws =>
      rw [join, List.append_assoc]
      exact (words_append_space hne hw _).trans (congrArg (w :: ·) (ih hws))

theorem replace_eq_self {a b : Char} {t : Text} (h : a ∉ t) : replace a b t = t := by
  calc replace a b t
      = t.map id := List.map_congr_left fun c hc => if_neg (ne_of_mem_of_not_mem hc h)
    _ = t := List.map_id t

theorem not_mem_replace {a b : Char} (hab : a ≠ b) (t : Text) : a ∉ replace a b t := by
  intro hmem
  obtain ⟨c, -, heq⟩ := List.mem_map.1 hmem
  split at heq
  · exact hab heq.symm
  · next hc => exact hc heq

end Text

-- =================================================================== titles

/-- No blank stands at the ends of a title. -/
theorem IsTitle.isBlank_ends {t : Text} (h : IsTitle t) :
    (∀ c ∈ t.head?, isBlank c = false) ∧ ∀ c ∈ t.getLast?, isBlank c = false := by
  have hspace {c : Char} (hmem : c ∈ t) (hc : c ≠ ' ') : isBlank c = false := by
    rw [Bool.eq_false_iff]
    exact fun hblank => hc (h.space c hmem hblank)
  exact ⟨fun c hc => hspace (List.mem_of_mem_head? hc) (h.head c hc),
    fun c hc => hspace (List.mem_of_getLast? hc) (h.last c hc)⟩

namespace IsTitleWord

variable {w : Text}

theorem isBlank_eq_false (h : IsTitleWord w) : ∀ c ∈ w, isBlank c = false :=
  fun c hc => (isTitleChar_iff.1 (h.titleChar c hc)).1

theorem ne_space (h : IsTitleWord w) : ∀ c ∈ w, c ≠ ' ' := by
  rintro c hc rfl
  exact Bool.noConfusion (Text.isBlank_space.symm.trans (h.isBlank_eq_false _ hc))

/-- Two spaces behind a word stand side by side behind it, not in it. -/
theorem infix_of_append (h : IsTitleWord w) {t : Text} (hspaces : [' ', ' '] <:+: w ++ t) :
    [' ', ' '] <:+: t := by
  have hall := h.ne_space
  clear h
  induction w with
  | nil => exact hspaces
  | cons c w ih =>
    obtain ⟨hc, hw⟩ := List.forall_mem_cons.1 hall
    rcases List.infix_cons_iff.1 hspaces with hfront | hinner
    · exact absurd (List.cons_prefix_cons.1 hfront).1.symm hc
    · exact ih hinner hw

/-- A word is a title. -/
theorem isTitle (h : IsTitleWord w) : IsTitle w where
  ne_nil := h.ne_nil
  allowed c hc := (isTitleChar_iff.1 (h.titleChar c hc)).2.2
  noUnderscore hmem := (isTitleChar_iff.1 (h.titleChar _ hmem)).2.1 rfl
  space c hc hblank := absurd hblank (by simp [h.isBlank_eq_false c hc])
  head c hc := h.ne_space c (List.mem_of_mem_head? hc)
  last c hc := h.ne_space c (List.mem_of_getLast? hc)
  single hspaces := by
    rw [← List.append_nil w] at hspaces
    exact absurd (h.infix_of_append hspaces) (by decide)

/-- A word in front of a title, with a space between them. -/
theorem isTitle_append {t : Text} (h : IsTitleWord w) (ht : IsTitle t) :
    IsTitle (w ++ ' ' :: t) := by
  have hw := h.isTitle
  have hmem {c : Char} (hc : c ∈ w ++ ' ' :: t) : c ∈ w ∨ c = ' ' ∨ c ∈ t := by
    simpa using hc
  refine ⟨List.append_ne_nil_of_left_ne_nil h.ne_nil _, fun c hc => ?_, fun hc => ?_,
    fun c hc hblank => ?_, ?_, fun c hc => ?_, ?_⟩
  · rcases hmem hc with hc | rfl | hc
    · exact hw.allowed c hc
    · decide
    · exact ht.allowed c hc
  · rcases hmem hc with hc | hc | hc
    · exact hw.noUnderscore hc
    · exact absurd hc (by decide)
    · exact ht.noUnderscore hc
  · rcases hmem hc with hc | rfl | hc
    · exact hw.space c hc hblank
    · rfl
    · exact ht.space c hc hblank
  · obtain ⟨c, u, rfl⟩ := List.exists_cons_of_ne_nil h.ne_nil
    exact hw.head
  · have hlast := Text.mem_getLast?_of_append (List.cons_ne_nil _ _) hc
    rw [List.getLast?_cons_of_ne_nil ht.ne_nil] at hlast
    exact ht.last c hlast
  · intro hspaces
    rcases List.infix_cons_iff.1 (h.infix_of_append hspaces) with hfront | hinner
    · obtain ⟨c, u, rfl⟩ := List.exists_cons_of_ne_nil ht.ne_nil
      obtain ⟨-, hsecond⟩ := List.cons_prefix_cons.1 hfront
      exact ht.head c rfl (List.cons_prefix_cons.1 hsecond).1.symm
    · exact ht.single hinner

end IsTitleWord

theorem isTitle_join {ws : List Text} (hne : ws ≠ []) (h : ∀ w ∈ ws, IsTitleWord w) :
    IsTitle (Text.join [' '] ws) := by
  induction ws with
  | nil => exact absurd rfl hne
  | cons w ws ih =>
    obtain ⟨hw, hws⟩ := List.forall_mem_cons.1 h
    cases ws with
    | nil => exact hw.isTitle
    | cons u ws =>
      rw [Text.join, List.append_assoc]
      exact hw.isTitle_append (ih (List.cons_ne_nil u ws) hws)

-- ============================================================ normalization

/-- Words and spaces are spaced as they should be. -/
theorem spaceTitle_join {ws : List Text} (h : ∀ w ∈ ws, IsTitleWord w) :
    spaceTitle (Text.join [' '] ws) = Text.join [' '] ws := by
  have hwords := Text.words_join fun w hw => ⟨(h w hw).ne_nil, (h w hw).isBlank_eq_false⟩
  have hreplace : Text.replace '_' ' ' (Text.join [' '] ws) = Text.join [' '] ws := by
    cases ws with
    | nil => rfl
    | cons w ws => exact Text.replace_eq_self (isTitle_join (List.cons_ne_nil w ws) h).noUnderscore
  rw [spaceTitle, hreplace, hwords]

theorem normalizeTitle?_join {capital : Bool} {ws : List Text} (hne : ws ≠ [])
    (h : ∀ w ∈ ws, IsTitleWord w)
    (hcapital : capital = true → capitalize (Text.join [' '] ws) = Text.join [' '] ws) :
    normalizeTitle? capital (Text.join [' '] ws) = some (Text.join [' '] ws) := by
  have htitle := isTitle_join hne h
  have hempty : (Text.join [' '] ws).isEmpty = false := by
    simpa using htitle.ne_nil
  have hallowed : (Text.join [' '] ws).any (fun c => titleForbidden.contains c) = false := by
    rw [List.any_eq_false]
    intro c hc
    simpa using htitle.allowed c hc
  rw [normalizeTitle?, spaceTitle_join h]
  simp only [hempty, hallowed, Bool.or_self, Bool.false_eq_true, if_false]
  split
  · next hc => rw [hcapital hc]
  · rfl

/-- A capital letter in front of the words of a title: the first word is a word
again, and its first character stays as it is. -/
theorem exists_capitalize {ws : List Text} (hne : ws ≠ []) (h : ∀ w ∈ ws, IsTitleWord w) :
    ∃ ws', ws' ≠ [] ∧ (∀ w ∈ ws', IsTitleWord w) ∧
      capitalize (Text.join [' '] ws) = Text.join [' '] ws' ∧
      capitalize (Text.join [' '] ws') = Text.join [' '] ws' := by
  obtain ⟨w, rest, rfl⟩ := List.exists_cons_of_ne_nil hne
  obtain ⟨hw, hrest⟩ := List.forall_mem_cons.1 h
  obtain ⟨c, u, rfl⟩ := List.exists_cons_of_ne_nil hw.ne_nil
  obtain ⟨hc, hu⟩ := List.forall_mem_cons.1 hw.titleChar
  obtain ⟨d, ds, hupper, hself, htitle⟩ := exists_upperCase c
  have hjoin (c : Char) (u : Text) :
      capitalize (Text.join [' '] ((c :: u) :: rest)) =
        Text.join [' '] ((upperCase c ++ u) :: rest) := by
    cases rest with
    | nil => rfl
    | cons v rest => simp [Text.join, capitalize]
  refine ⟨(d :: (ds ++ u)) :: rest, List.cons_ne_nil _ _, List.forall_mem_cons.2 ⟨?_, hrest⟩, ?_, ?_⟩
  · exact ⟨List.cons_ne_nil _ _, List.forall_mem_append.2 ⟨htitle hc, hu⟩⟩
  · rw [hjoin, hupper]
    rfl
  · rw [hjoin, hself]
    rfl

/-- Characters of titles with spaces between them make a title. -/
theorem exists_normalizeTitle? (capital : Bool) {t : Text}
    (hall : ∀ c ∈ t, isTitleChar c = true ∨ c = ' ') (hsome : ∃ c ∈ t, isTitleChar c = true) :
    ∃ s, normalizeTitle? capital t = some s := by
  have hreplace : Text.replace '_' ' ' t = t := by
    refine Text.replace_eq_self fun hmem => ?_
    rcases hall '_' hmem with h | h
    · exact (isTitleChar_iff.1 h).2.1 rfl
    · exact absurd h (by decide)
  have hwords : ∀ w ∈ Text.words t, IsTitleWord w := by
    intro w hw
    obtain ⟨hne, hmem⟩ := Text.of_mem_words hw
    refine ⟨hne, fun c hc => (hall c (hmem c hc).1).resolve_right ?_⟩
    rintro rfl
    exact absurd (hmem ' ' hc).2 (by decide)
  have hne : Text.words t ≠ [] := by
    obtain ⟨c, hc, hchar⟩ := hsome
    exact Text.words_ne_nil ⟨c, hc, (isTitleChar_iff.1 hchar).1⟩
  have htitle : IsTitle (spaceTitle t) := by
    rw [spaceTitle, hreplace]
    exact isTitle_join hne hwords
  have hproper : ((spaceTitle t).isEmpty ||
      (spaceTitle t).any fun c => titleForbidden.contains c) = false := by
    rw [Bool.or_eq_false_iff, List.isEmpty_eq_false_iff, List.any_eq_false]
    exact ⟨htitle.ne_nil, fun c hc => by simpa using htitle.allowed c hc⟩
  rw [normalizeTitle?, hproper]
  exact ⟨_, rfl⟩

/-- What a text is normalized to is a list of words, and capitalized if that is
asked for. -/
theorem exists_of_normalizeTitle? {capital : Bool} {t s : Text}
    (h : normalizeTitle? capital t = some s) :
    ∃ ws, ws ≠ [] ∧ (∀ w ∈ ws, IsTitleWord w) ∧ s = Text.join [' '] ws ∧
      (capital = true → capitalize s = s) := by
  rw [normalizeTitle?] at h
  split at h
  · cases h
  · next hproper =>
    simp only [Bool.or_eq_true, not_or, Bool.not_eq_true, List.any_eq_false] at hproper
    obtain ⟨hempty, hallowed⟩ := hproper
    have hwords : ∀ w ∈ Text.words (Text.replace '_' ' ' t), IsTitleWord w := by
      intro w hw
      obtain ⟨hne, hmem⟩ := Text.of_mem_words hw
      refine ⟨hne, fun c hc => isTitleChar_iff.2 ⟨(hmem c hc).2, ?_, ?_⟩⟩
      · exact ne_of_mem_of_not_mem (hmem c hc).1 (Text.not_mem_replace (by decide) t)
      · simpa using hallowed c (Text.mem_join hw hc)
    have hne : Text.words (Text.replace '_' ' ' t) ≠ [] := by
      intro hnil
      rw [spaceTitle, hnil] at hempty
      cases hempty
    split at h
    · obtain ⟨ws, hws, hproper, heq, hself⟩ := exists_capitalize hne hwords
      cases h
      refine ⟨ws, hws, hproper, heq, fun _ => ?_⟩
      show capitalize (capitalize _) = capitalize _
      rw [show spaceTitle t = Text.join [' '] _ from rfl, heq, hself]
    · next hsmall =>
      cases h
      exact ⟨_, hne, hwords, rfl, fun hcapital => absurd hcapital hsmall⟩

theorem isTitle_of_normalizeTitle? {capital : Bool} {t s : Text}
    (h : normalizeTitle? capital t = some s) : IsTitle s := by
  obtain ⟨ws, hne, hws, rfl, -⟩ := exists_of_normalizeTitle? h
  exact isTitle_join hne hws

/-- Normalizing a second time changes nothing. -/
theorem normalizeTitle?_of_normalizeTitle? {capital : Bool} {t s : Text}
    (h : normalizeTitle? capital t = some s) : normalizeTitle? capital s = some s := by
  obtain ⟨ws, hne, hws, rfl, hcapital⟩ := exists_of_normalizeTitle? h
  exact normalizeTitle?_join hne hws hcapital

end InlineQuery
