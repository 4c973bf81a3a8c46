/-
The kind of a chunk, told from the text that it is cut off.

Cutting and classifying are two readings of the same delimiters. A cut matches
delimiters with their case folded and looks for them behind blanks; a token is
told by the spelling of the chunk that has been cut. That the two agree is what a
reader rests on: a chunk is a delimiter exactly if one stands at the front of the
text, and a chunk that is none has no delimiter in it (`next_classified`).

# What a text begins with

Whether a text begins with a delimiter is said here without cutting it
(`Token.Begins`), letter case apart, and not of a bar that is the first of two.
At most one delimiter begins a text (`Token.Begins.unique`): among the ways to
write them, only the bar is the beginning of another.

# Names of classes

The names of the classes are cut off too, with their colons. They get in the way
of nothing as long as no character of a delimiter is in them
(`ClassLabels.Plain`).
-/
import InlineQuery.Proofs.Reading.Appending
import InlineQuery.Proofs.Reading.Steps

namespace InlineQuery

variable {pattern t u : Text} {c d : Char}

-- ============================================================== letter case

/-- The character is one of ASCII, and so is whatever is folded to the same
character. -/
def isAsciiFold (c : Char) : Bool :=
  c.toNat < 128 && foldRuns.tail.all fun run =>
    decide (foldCode c < run.image run.first ∨ run.image run.last < foldCode c)

theorem toNat_lt_of_sameFold (hc : isAsciiFold c = true) (h : sameFold c d = true) :
    d.toNat < 128 := by
  obtain ⟨hascii, hruns⟩ := Bool.and_eq_true_iff.1 hc
  have hascii : c.toNat < 128 := of_decide_eq_true hascii
  have hfold : foldCode d = foldCode c := (eq_of_beq h).symm
  rcases CaseRun.mapCode_cases foldRuns d.toNat with hself | ⟨run, hrun, hcovers, himage⟩
  · -- the character is its own representative
    have hsmall : c.toLower.toNat < 128 :=
      forall_ascii (P := fun c => c.toLower.toNat < 128) (by decide +kernel) hascii
    have hcode : d.toNat = c.toLower.toNat :=
      (hself.symm.trans hfold).trans (foldCode_ascii hascii)
    omega
  · obtain ⟨hfirst, hlast, -⟩ := CaseRun.covers_iff.1 hcovers
    have hcapitals : foldRuns = ⟨0x41, 0x5a, 1, 32⟩ :: foldRuns.tail := rfl
    rw [hcapitals] at hrun
    rcases List.mem_cons.1 hrun with rfl | hrun
    · exact Nat.lt_of_le_of_lt hlast (by decide)
    · have himage : run.image d.toNat = foldCode c := himage.symm.trans hfold
      have hoff := of_decide_eq_true (List.all_eq_true.1 hruns run hrun)
      simp only [CaseRun.image] at himage hoff
      omega

/-- Folding such a character compares no more than ASCII letters. -/
theorem sameFold_of_isAsciiFold (hc : isAsciiFold c = true) :
    sameFold c d = (d.toLower == c.toLower) := by
  have hascii : c.toNat < 128 := of_decide_eq_true (Bool.and_eq_true_iff.1 hc).1
  rw [Bool.eq_iff_iff]
  constructor
  · intro h
    rw [sameFold_ascii hascii (toNat_lt_of_sameFold hc h), beq_iff_eq] at h
    exact beq_iff_eq.2 h.symm
  · intro h
    have hlower : d.toLower = c.toLower := eq_of_beq h
    have hsmall : c.toLower.toNat < 128 :=
      forall_ascii (P := fun c => c.toLower.toNat < 128) (by decide +kernel) hascii
    have hd : d.toNat < 128 := toNat_lt_of_toLower (hlower ▸ hsmall)
    rw [sameFold_ascii hascii hd, hlower]
    exact beq_self_eq_true _

namespace Text

/-- The text starts with `front`, up to the case of ASCII letters. -/
def begins (front t : Text) : Bool := eqIgnoreAsciiCase (t.take front.length) front

theorem begins_nil (t : Text) : begins [] t = true := rfl

theorem begins_cons (c : Char) (front : Text) (d : Char) (t : Text) :
    begins (c :: front) (d :: t) = (d.toLower == c.toLower && begins front t) := rfl

/-- What a text is, up to case, it begins with. -/
theorem begins_of_eqIgnoreAsciiCase {front piece : Text} (h : eqIgnoreAsciiCase piece front = true)
    (k : Text) : begins front (piece ++ k) = true := by
  have hlength : piece.length = front.length := by
    have := congrArg List.length (eq_of_beq h)
    simpa only [List.length_map] using this
  rw [begins, ← hlength, List.take_left]
  exact h

/-- Of two texts that a third one begins with, the shorter one begins the other. -/
theorem begins_of_begins {long : Text} (h : begins pattern t = true) (hlong : begins long t = true)
    (hle : pattern.length ≤ long.length) : begins pattern long = true := by
  induction pattern generalizing long t with
  | nil => exact begins_nil long
  | cons c pattern ih =>
    cases long with
    | nil => exact absurd hle (Nat.not_succ_le_zero _)
    | cons e long =>
      cases t with
      | nil => cases h
      | cons d t =>
        rw [begins_cons, Bool.and_eq_true, beq_iff_eq] at h hlong
        rw [begins_cons, Bool.and_eq_true, beq_iff_eq]
        exact ⟨hlong.1.symm.trans h.1, ih h.2 hlong.2 (Nat.le_of_succ_le_succ hle)⟩

/-- Some piece of the text is `mark`, up to the case of ASCII letters. -/
def Holds (mark t : Text) : Prop := ∃ piece, piece <:+: t ∧ eqIgnoreAsciiCase piece mark = true

/-- A piece of a text without the blanks at its ends is one of the text. -/
theorem Holds.of_trim {mark : Text} (h : Holds mark (trim t)) : Holds mark t := by
  obtain ⟨piece, hpiece, heq⟩ := h
  obtain ⟨front, back, -, -, happend⟩ := trim_append t
  exact ⟨piece, hpiece.trans ⟨front, back, happend⟩, heq⟩

end Text

/-- A pattern of such characters is matched by what begins with it. -/
theorem isSome_matchFront? (hpattern : pattern.all isAsciiFold = true) (t : Text) :
    (matchFront? pattern t).isSome = Text.begins pattern t := by
  induction pattern generalizing t with
  | nil => rw [matchFront?, Text.begins_nil, Option.isSome_some]
  | cons c pattern ih =>
    rw [List.all_cons, Bool.and_eq_true] at hpattern
    cases t with
    | nil => rfl
    | cons d t =>
      rw [matchFront?, Text.begins_cons, ← ih hpattern.2, ← sameFold_of_isAsciiFold hpattern.1]
      split
      · next hsame => rw [hsame, Bool.true_and, Option.isSome_map]
      · next hdiffer => rw [Bool.eq_false_iff.2 hdiffer, Bool.false_and, Option.isSome_none]

-- =============================================================== delimiters

namespace Token

/-- The ways to write a delimiter. -/
def marks : Token → List Text
  | openAtom => [['[', '[']]
  | closeAtom => [[']', ']']]
  | separator => [[':', ':'], [':', '=']]
  | openQuery => [['<', 'q', '>']]
  | closeQuery => [['<', '/', 'q', '>']]
  | bars => [['|', '|']]
  | bar => [['|']]
  | _ => []

/-- A delimiter stands at the front of the text. A bar does only if it is not the
first of two. -/
def Begins (token : Token) (t : Text) : Prop :=
  (∃ mark ∈ token.marks, Text.begins mark t = true) ∧
    (token = bar → Text.begins ['|', '|'] t = false)

/-- The tokens that are written in one way or in two. -/
def written : List Token := [openAtom, closeAtom, separator, openQuery, closeQuery, bars, bar]

variable {token other : Token} {mark chunk : Text}

theorem mem_written (h : mark ∈ token.marks) : token ∈ written := by
  cases token
  all_goals first | exact absurd h List.not_mem_nil | decide

theorem mem_anywhere_iff : mark ∈ StopSet.all.anywhere ↔ ∃ token : Token, mark ∈ token.marks := by
  constructor
  · have hall : ∀ mark ∈ StopSet.all.anywhere, ∃ token ∈ written, mark ∈ token.marks := by decide
    intro h
    obtain ⟨token, -, hmark⟩ := hall mark h
    exact ⟨token, hmark⟩
  · have hall : ∀ token ∈ written, ∀ mark ∈ token.marks, mark ∈ StopSet.all.anywhere := by decide
    rintro ⟨token, hmark⟩
    exact hall token (mem_written hmark) mark hmark

theorem isAsciiFold_of_mem_marks (h : mark ∈ token.marks) : mark.all isAsciiFold = true := by
  have hall : ∀ token ∈ written, ∀ mark ∈ token.marks, mark.all isAsciiFold = true := by
    decide +kernel
  exact hall token (mem_written h) mark h

/-- The characters that delimiters begin with. -/
theorem exists_cons_of_mem_marks (h : mark ∈ token.marks) :
    ∃ c ∈ ['[', ']', '|', '<', ':'], ∃ rest, mark = c :: rest ∧ (rest = [] → c ≠ ':') := by
  cases token
  all_goals simp only [marks, List.mem_cons, List.not_mem_nil, or_false] at h
  case separator => rcases h with rfl | rfl <;> exact ⟨':', by decide, _, rfl, by decide⟩
  all_goals subst h
  case openAtom => exact ⟨'[', by decide, _, rfl, by decide⟩
  case closeAtom => exact ⟨']', by decide, _, rfl, by decide⟩
  case openQuery => exact ⟨'<', by decide, _, rfl, by decide⟩
  case closeQuery => exact ⟨'<', by decide, _, rfl, by decide⟩
  case bars => exact ⟨'|', by decide, _, rfl, by decide⟩
  case bar => exact ⟨'|', by decide, _, rfl, by decide⟩

/-- Only the bar is the beginning of another delimiter. -/
theorem eq_of_begins_mark {mark' : Text} (hmark : mark ∈ token.marks)
    (hmark' : mark' ∈ other.marks) (h : Text.begins mark mark' = true) :
    token = other ∨ (token = bar ∧ mark' = ['|', '|']) := by
  have hall : ∀ token ∈ written, ∀ other ∈ written, ∀ mark ∈ token.marks, ∀ mark' ∈ other.marks,
      Text.begins mark mark' = true → token = other ∨ (token = bar ∧ mark' = ['|', '|']) := by
    decide
  exact hall token (mem_written hmark) other (mem_written hmark') mark hmark mark' hmark' h

/-- A text begins with one delimiter at most. -/
theorem Begins.unique (h : token.Begins t) (h' : other.Begins t) : token = other := by
  obtain ⟨⟨mark, hmark, hbegins⟩, hbar⟩ := h
  obtain ⟨⟨mark', hmark', hbegins'⟩, hbar'⟩ := h'
  rcases Nat.le_total mark.length mark'.length with hle | hle
  · rcases eq_of_begins_mark hmark hmark' (Text.begins_of_begins hbegins hbegins' hle) with
      heq | ⟨hone, htwo⟩
    · exact heq
    · rw [htwo, hbar hone] at hbegins'
      cases hbegins'
  · rcases eq_of_begins_mark hmark' hmark (Text.begins_of_begins hbegins' hbegins hle) with
      heq | ⟨hone, htwo⟩
    · exact heq.symm
    · rw [htwo, hbar' hone] at hbegins
      cases hbegins

-- ================================================================ spellings

/-- Only a character that is no letter has itself for its small letter, and no other
character. -/
theorem eq_of_toLower (hd : d.toNat < 128) (hsymbol : d.isAlpha = false) (h : c.toLower = d) :
    c = d := by
  have hc : c.toNat < 128 := toNat_lt_of_toLower (h ▸ hd)
  have hself : c.toLower.isAlpha = false → c.toLower = c :=
    forall_ascii (P := fun c => c.toLower.isAlpha = false → c.toLower = c) (by decide +kernel) hc
  subst h
  exact (hself hsymbol).symm

theorem eq_of_eqIgnoreAsciiCase
    (hsymbols : mark.all (fun c => c.toNat < 128 && !c.isAlpha) = true)
    (h : Text.eqIgnoreAsciiCase chunk mark = true) : chunk = mark := by
  induction mark generalizing chunk with
  | nil => exact List.map_eq_nil_iff.1 (eq_of_beq h)
  | cons d mark ih =>
    cases chunk with
    | nil => cases h
    | cons c chunk =>
      rw [List.all_cons, Bool.and_eq_true, Bool.and_eq_true, decide_eq_true_eq,
        Bool.not_eq_true'] at hsymbols
      obtain ⟨⟨hascii, hsymbol⟩, hrest⟩ := hsymbols
      obtain ⟨hhead, htail⟩ := List.cons.inj (eq_of_beq h)
      have hself : d.toLower = d := by
        have hsmall : d.isAlpha = false → d.toLower = d :=
          forall_ascii (P := fun d => d.isAlpha = false → d.toLower = d) (by decide +kernel) hascii
        exact hsmall hsymbol
      rw [eq_of_toLower hascii hsymbol (hhead.trans hself), ih hrest (beq_iff_eq.2 htail)]

/-- A chunk that is written like a delimiter is that delimiter. -/
theorem ofChunk_of_mem_marks (hmark : mark ∈ token.marks)
    (h : Text.eqIgnoreAsciiCase chunk mark = true) : ofChunk chunk = token := by
  have hne {other : Text} (hother : Text.eqIgnoreAsciiCase other mark = false) :
      chunk ≠ other := by
    rintro rfl
    rw [h] at hother
    cases hother
  cases token
  all_goals simp only [marks, List.mem_cons, List.not_mem_nil, or_false] at hmark
  case openQuery =>
    subst hmark
    have hopen : chunk.map Char.toLower = ['<', 'q', '>'] := eq_of_beq h
    rw [ofChunk, if_neg (hne rfl), if_neg (hne rfl), if_neg (hne rfl),
      if_neg (not_or.2 ⟨hne rfl, hne rfl⟩), if_neg (hne rfl), if_neg (hne rfl), if_neg (hne rfl),
      if_neg (hne rfl), if_pos hopen]
  case closeQuery =>
    subst hmark
    have hclose : chunk.map Char.toLower = ['<', '/', 'q', '>'] := eq_of_beq h
    have hopen : chunk.map Char.toLower ≠ ['<', 'q', '>'] := by
      rw [hclose]
      decide
    rw [ofChunk, if_neg (hne rfl), if_neg (hne rfl), if_neg (hne rfl),
      if_neg (not_or.2 ⟨hne rfl, hne rfl⟩), if_neg (hne rfl), if_neg (hne rfl), if_neg (hne rfl),
      if_neg (hne rfl), if_neg hopen, if_pos hclose]
  case separator => rcases hmark with rfl | rfl <;> rw [eq_of_eqIgnoreAsciiCase rfl h] <;> rfl
  all_goals
    subst hmark
    rw [eq_of_eqIgnoreAsciiCase rfl h]
    rfl

/-- Conversely a chunk that is a delimiter is written like one. -/
theorem exists_eqIgnoreAsciiCase (hchunk : ofChunk chunk = token) (htoken : token ∈ written) :
    ∃ mark ∈ token.marks, Text.eqIgnoreAsciiCase chunk mark = true := by
  have hspells := spells_ofChunk chunk
  rw [hchunk] at hspells
  have hsame {mark : Text} (h : chunk = mark) : Text.eqIgnoreAsciiCase chunk mark = true := by
    rw [h]
    exact beq_self_eq_true _
  cases token
  all_goals first | exact absurd htoken (by decide) | skip
  case separator =>
    rcases hspells with heq | heq
    · exact ⟨_, List.mem_cons_self, hsame heq⟩
    · exact ⟨_, List.mem_cons_of_mem _ List.mem_cons_self, hsame heq⟩
  case openQuery => exact ⟨_, List.mem_cons_self, beq_iff_eq.2 hspells⟩
  case closeQuery => exact ⟨_, List.mem_cons_self, beq_iff_eq.2 hspells⟩
  all_goals exact ⟨_, List.mem_cons_self, hsame hspells⟩

/-- There are no blanks in a delimiter. -/
theorem trim_of_mem_marks (hmark : mark ∈ token.marks)
    (h : Text.eqIgnoreAsciiCase chunk mark = true) : Text.trim chunk = chunk := by
  have hsolid : ∀ token ∈ written, ∀ mark ∈ token.marks,
      (mark.map Char.toLower).all (fun c => decide (c.toNat < 128) && !isBlank c) = true := by
    decide
  have hblank : ∀ c ∈ chunk, isBlank c = false := by
    intro c hc
    have hlower : c.toLower ∈ mark.map Char.toLower := by
      rw [← show chunk.map Char.toLower = mark.map Char.toLower from eq_of_beq h]
      exact List.mem_map_of_mem hc
    obtain ⟨hascii, hblank⟩ := Bool.and_eq_true_iff.1
      (List.all_eq_true.1 (hsolid token (mem_written hmark) mark hmark) _ hlower)
    exact forall_ascii (P := fun c => isBlank c.toLower = false → isBlank c = false)
      (by decide +kernel) (toNat_lt_of_toLower (of_decide_eq_true hascii))
      (by simpa using hblank)
  exact Text.trim_eq_self (fun c hc => hblank c (List.mem_of_mem_head? hc))
    fun c hc => hblank c (List.mem_of_getLast? hc)

/-- What is found at the front of a text is the delimiter that it begins with. -/
theorem exists_begins {parts : Text × Text}
    (h : firstDelimiter? StopSet.all.anywhere u = some parts) :
    ∃ token ∈ written, token.Begins u ∧ ofChunk (Text.trim parts.1) = token := by
  obtain ⟨before, mark, after, hlist, hmatch, hearlier⟩ := List.findSome?_eq_some_iff.1 h
  have hmem : mark ∈ StopSet.all.anywhere := by
    rw [hlist]
    exact List.mem_append_right before List.mem_cons_self
  obtain ⟨token, hmark⟩ := mem_anywhere_iff.1 hmem
  have hfront : Text.begins mark u = true := by
    rw [← isSome_matchFront? (isAsciiFold_of_mem_marks hmark), hmatch]
    rfl
  have hspelled : Text.eqIgnoreAsciiCase parts.1 mark = true := by
    rw [Text.begins, append_of_matchFront? hmatch, ← length_of_matchFront? hmatch,
      List.take_left] at hfront
    exact hfront
  refine ⟨token, mem_written hmark, ⟨⟨mark, hmark, hfront⟩, ?_⟩, ?_⟩
  · -- two bars would have been found first
    rintro rfl
    obtain rfl : mark = ['|'] := List.mem_singleton.1 hmark
    have hlater : ∀ n < StopSet.all.anywhere.length, StopSet.all.anywhere[n]? = some ['|'] →
        ['|', '|'] ∈ StopSet.all.anywhere.take n := by
      decide
    have htwo : ['|', '|'] ∈ before := by
      have := hlater before.length (by rw [hlist, List.length_append, List.length_cons]; omega)
        (by rw [hlist, List.getElem?_append_right (Nat.le_refl _), Nat.sub_self]; rfl)
      rwa [hlist, List.take_left] at this
    have hbars : ['|', '|'] ∈ bars.marks := List.mem_cons_self
    rw [← isSome_matchFront? (isAsciiFold_of_mem_marks hbars), hearlier _ htwo]
    rfl
  · rw [trim_of_mem_marks hmark hspelled]
    exact ofChunk_of_mem_marks hmark hspelled

/-- Where nothing is found, the text begins with no delimiter. -/
theorem not_begins (h : firstDelimiter? StopSet.all.anywhere u = none) (token : Token) :
    ¬ token.Begins u := by
  rintro ⟨⟨mark, hmark, hbegins⟩, -⟩
  have hnone := List.findSome?_eq_none_iff.1 h mark (mem_anywhere_iff.2 ⟨token, hmark⟩)
  rw [← isSome_matchFront? (isAsciiFold_of_mem_marks hmark), hnone] at hbegins
  cases hbegins

end Token

-- ================================================================ free text

namespace StopSet

variable {labels : ClassLabels} {stop : StopSet} {parts : Text × Text} {mark : Text}

/-- In front of the place where a text is cut, no delimiter begins. -/
theorem firstDelimiter?_inside {front v : Text} (happend : front ++ v = t)
    (hinside : front.length < (stop.splitBefore labels t).1.length) :
    firstDelimiter? stop.anywhere (Text.trimFront v) = none := by
  induction t generalizing front with
  | nil => exact absurd hinside (Nat.not_lt_zero _)
  | cons c t ih =>
    rw [splitBefore] at hinside
    cases hnone : stop.delimiter? labels false (c :: t) with
    | some found =>
      rw [hnone] at hinside
      exact absurd hinside (Nat.not_lt_zero _)
    | none =>
      rw [hnone] at hinside
      cases front with
      | nil =>
        rw [List.nil_append] at happend
        rw [happend, ← delimiter?_false labels]
        exact hnone
      | cons d front =>
        exact ih (List.cons.inj happend).2 (Nat.lt_of_succ_lt_succ hinside)

/-- No delimiter begins at a piece of the text that a cut takes in front of one. -/
theorem firstDelimiter?_piece {front piece back : Text}
    (happend : front ++ piece ++ back = (stop.splitBefore labels t).1) (hne : piece ≠ [])
    (hsolid : ∀ c ∈ piece.head?, isBlank c = false) :
    ∃ k, firstDelimiter? stop.anywhere (piece ++ k) = none := by
  obtain ⟨behind, hbehind⟩ := splitBefore_isPrefix labels stop t
  have hplace : front ++ (piece ++ (back ++ behind)) = t := by
    rw [← hbehind, ← happend, List.append_assoc, List.append_assoc]
  have hinside : front.length < (stop.splitBefore labels t).1.length := by
    have := List.length_pos_iff.2 hne
    rw [← happend, List.length_append, List.length_append]
    omega
  have hnone := firstDelimiter?_inside hplace hinside
  obtain ⟨c, rest, rfl⟩ := List.exists_cons_of_ne_nil hne
  rw [Text.trimFront_eq_self (by rintro d ⟨⟩; exact hsolid c rfl)] at hnone
  exact ⟨back ++ behind, hnone⟩

/-- The characters of a name, letter case apart, with a colon behind them: what is
cut off as the name of a class. -/
theorem exists_of_matchFront?_name {name : Text}
    (h : matchFront? (name ++ [':']) t = some parts) :
    ∃ w, parts.1 = w ++ [':'] ∧ w.map foldCode = name.map foldCode := by
  induction name generalizing t parts with
  | nil => exact ⟨[], fst_of_matchFront? (by decide +kernel) h, rfl⟩
  | cons c name ih =>
    cases t with
    | nil => cases h
    | cons d t =>
      rw [List.cons_append, matchFront?] at h
      split at h
      · next hsame =>
        obtain ⟨inner, hinner, rfl⟩ := Option.map_eq_some_iff.1 h
        obtain ⟨w, hw, hfold⟩ := ih hinner
        refine ⟨d :: w, congrArg (d :: ·) hw, ?_⟩
        rw [List.map_cons, List.map_cons, hfold, eq_of_beq hsame]
      · cases h

end StopSet

/-- The labels are not blank, and have no character of a delimiter in them. -/
def ClassLabels.Plain (labels : ClassLabels) : Prop :=
  ∀ label ∈ [labels.category, labels.concept],
    Text.isBlankText label = false ∧ ∀ c ∈ label, c ∉ ['[', ']', '|', '<', '>', ':']

instance (labels : ClassLabels) : Decidable labels.Plain :=
  have (label : Text) : Decidable (∀ c ∈ label, c ∉ ['[', ']', '|', '<', '>', ':']) :=
    List.decidableBAll _ _
  List.decidableBAll _ _

namespace ClassLabels.Plain

open StopSet

variable {labels : ClassLabels} {name : Text} {parts : Text × Text} {token : Token} {mark : Text}

/-- The canonical names are as plain. -/
theorem of_mem_leadingMarks (h : labels.Plain) {lead : Text}
    (hlead : lead ∈ StopSet.all.leadingMarks labels) :
    ∃ name, lead = name ++ [':'] ∧ name ≠ [] ∧ ∀ c ∈ name, isInert c = true := by
  have hlabel {label : Text} (hmem : label ∈ [labels.category, labels.concept]) :
      label ≠ [] ∧ ∀ c ∈ label, isInert c = true := by
    obtain ⟨hblank, hplain⟩ := h label hmem
    refine ⟨?_, fun c hc => List.all_eq_true.2 fun d hd => ?_⟩
    · rintro rfl
      cases hblank
    · have hcaseless : ['[', ']', ':', '<', '|'].all (fun d => isCaseless d &&
          decide (d ∈ ['[', ']', '|', '<', '>', ':'])) = true := by
        decide +kernel
      obtain ⟨hself, hmem⟩ := Bool.and_eq_true_iff.1 (List.all_eq_true.1 hcaseless d hd)
      rw [Bool.not_eq_true', Bool.eq_false_iff]
      intro hsame
      rw [eq_of_sameFold hself hsame] at hc
      exact hplain d hc (of_decide_eq_true hmem)
  have hcanonical : ∀ name ∈ [categoryName, conceptName],
      name ≠ [] ∧ name.all isInert = true := by
    decide +kernel
  have hcanonical {name : Text} (hmem : name ∈ [categoryName, conceptName]) :
      name ≠ [] ∧ ∀ c ∈ name, isInert c = true :=
    ⟨(hcanonical name hmem).1, List.all_eq_true.1 (hcanonical name hmem).2⟩
  obtain ⟨name, hname, rfl⟩ := List.mem_map.1 hlead
  refine ⟨name, rfl, ?_⟩
  simp only [List.mem_cons, List.not_mem_nil, or_false] at hname
  rcases hname with rfl | rfl | rfl | rfl
  · exact hlabel List.mem_cons_self
  · exact hcanonical List.mem_cons_self
  · exact hlabel (List.mem_cons_of_mem _ List.mem_cons_self)
  · exact hcanonical (List.mem_cons_of_mem _ List.mem_cons_self)

/-- Where a delimiter stands, the name of a class does not. -/
theorem leadingMarks_eq_none (h : labels.Plain) (hc : isInert c = false) (t : Text) :
    firstDelimiter? (StopSet.all.leadingMarks labels) (c :: t) = none := by
  refine List.findSome?_eq_none_iff.2 fun lead hlead => ?_
  obtain ⟨name, rfl, hne, hinert⟩ := h.of_mem_leadingMarks hlead
  cases name with
  | nil => exact absurd rfl hne
  | cons d name =>
    refine matchFront?_eq_none (Bool.eq_false_iff.2 fun hsame => ?_) _ _
    rw [isInert_of_sameFold hsame, hinert d List.mem_cons_self] at hc
    cases hc

end ClassLabels.Plain

namespace Text

variable {token : Token} {mark : Text}

/-- A delimiter in a text begins with a character that is not inert, and if it has
no other character it is no colon. -/
theorem Holds.exists_place (hmark : mark ∈ token.marks) (h : Holds mark t) :
    ∃ front c piece back, front ++ c :: piece ++ back = t ∧ isInert c = false ∧
      eqIgnoreAsciiCase (c :: piece) mark = true ∧ (piece = [] → c ≠ ':') := by
  obtain ⟨piece, ⟨front, back, happend⟩, heq⟩ := h
  obtain ⟨c, hc, rest, rfl, hcolon⟩ := Token.exists_cons_of_mem_marks hmark
  have hsymbols : ['[', ']', '|', '<', ':'].all (fun c => decide (c.toNat < 128 ∧
      c.isAlpha = false ∧ c.toLower = c ∧ isInert c = false)) = true := by
    decide +kernel
  obtain ⟨hascii, hsymbol, hself, hinert⟩ :=
    of_decide_eq_true (List.all_eq_true.1 hsymbols c hc)
  have hlower : piece.map Char.toLower = c.toLower :: rest.map Char.toLower := eq_of_beq heq
  obtain ⟨d, piece, rfl, hhead, htail⟩ := List.map_eq_cons_iff.1 hlower
  obtain rfl : d = c := Token.eq_of_toLower hascii hsymbol (hhead.trans hself)
  refine ⟨front, d, piece, back, happend, hinert, heq, ?_⟩
  rintro rfl
  exact hcolon (List.map_eq_nil_iff.1 htail.symm)

end Text

namespace StopSet

variable {labels : ClassLabels} {parts : Text × Text} {token : Token} {mark : Text}

/-- No delimiter is in the text that a cut takes in front of one. -/
theorem not_holds_splitBefore (labels : ClassLabels) (t : Text) (hmark : mark ∈ token.marks) :
    ¬ Text.Holds mark (StopSet.all.splitBefore labels t).1 := by
  intro hholds
  obtain ⟨front, c, piece, back, happend, hinert, heq, -⟩ := hholds.exists_place hmark
  have hsolid : isBlank c = false := by
    rw [Bool.eq_false_iff]
    intro hblank
    rw [isInert_of_isBlank hblank] at hinert
    cases hinert
  obtain ⟨k, hnone⟩ := firstDelimiter?_piece happend (List.cons_ne_nil c piece)
    (by rintro d ⟨⟩; exact hsolid)
  have hmatch := List.findSome?_eq_none_iff.1 hnone mark (Token.mem_anywhere_iff.2 ⟨token, hmark⟩)
  have hbegins := Text.begins_of_eqIgnoreAsciiCase heq k
  rw [← isSome_matchFront? (Token.isAsciiFold_of_mem_marks hmark), hmatch] at hbegins
  cases hbegins

/-- No delimiter is in the name of a class with its colon. -/
theorem not_holds_leading (hlabels : labels.Plain)
    (h : firstDelimiter? (StopSet.all.leadingMarks labels) t = some parts)
    (hmark : mark ∈ token.marks) : ¬ Text.Holds mark parts.1 := by
  intro hholds
  obtain ⟨front, c, piece, back, happend, hinert, -, hcolon⟩ := hholds.exists_place hmark
  obtain ⟨lead, hlead, hmatch⟩ := List.exists_of_findSome?_eq_some h
  obtain ⟨name, rfl, -, hname⟩ := hlabels.of_mem_leadingMarks hlead
  obtain ⟨w, hw, hfold⟩ := exists_of_matchFront?_name hmatch
  have hoff : c ∉ w := by
    intro hc
    obtain ⟨d, hd, hsame⟩ := List.mem_map.1 (hfold ▸ List.mem_map_of_mem hc)
    rw [isInert_of_sameFold (c := d) (beq_iff_eq.2 hsame), hname d hd] at hinert
    cases hinert
  rw [hw] at happend
  cases piece with
  | nil =>
    have hc : c ∈ w ++ [':'] := by
      rw [← happend]
      exact List.mem_append_left _ (List.mem_append_right _ List.mem_cons_self)
    rcases List.mem_append.1 hc with hc | hc
    · exact hoff hc
    · exact hcolon rfl (List.mem_singleton.1 hc)
  | cons e piece =>
    -- something stands behind the character, so it is not the colon at the end
    have hinit := congrArg List.dropLast happend
    rw [List.dropLast_concat, List.append_assoc, List.cons_append, List.cons_append,
      List.dropLast_append_of_ne_nil (List.cons_ne_nil _ _),
      List.dropLast_cons_of_ne_nil (List.cons_ne_nil _ _)] at hinit
    exact hoff (hinit ▸ List.mem_append_right _ List.mem_cons_self)

/-- Where a delimiter begins, blanks apart, it is what a cut takes. -/
theorem delimiter?_of_plain (hlabels : labels.Plain)
    (h : firstDelimiter? StopSet.all.anywhere (Text.trimFront t) = some parts) :
    StopSet.all.delimiter? labels true t = some parts := by
  by_cases hself : Text.trimFront t = t
  · refine delimiter?_of_anywhere h ?_ true
    cases t with
    | nil => cases h
    | cons c t =>
      refine hlabels.leadingMarks_eq_none ?_ t
      cases hinert : isInert c with
      | false => rfl
      | true =>
        rw [hself, firstDelimiter?_inert hinert] at h
        cases h
  · have hblanks : ¬ ((Text.trimFront t).length == t.length) = true :=
      fun hlength => hself (Text.trimFront_eq_of_length (eq_of_beq hlength))
    rw [anywhere] at h
    simp only [delimiter?, Bool.true_and, if_neg hblanks, h]

/-- Where none begins, the chunk that is cut off has none in it. -/
theorem not_holds_chunk (hlabels : labels.Plain)
    (h : firstDelimiter? StopSet.all.anywhere (Text.trimFront t) = none)
    (hmark : mark ∈ token.marks) : ¬ Text.Holds mark (StopSet.all.cut labels t).chunk := by
  rw [cut, delimiter?_leading h]
  cases hleading : firstDelimiter? (StopSet.all.leadingMarks labels) t with
  | some parts => exact not_holds_leading hlabels hleading hmark
  | none => exact not_holds_splitBefore labels t hmark

end StopSet

-- ================================================================== chunks

/-- What the kind of a chunk says about the text that it is cut off. -/
structure Cut.Classified (chunk t : Text) : Prop where
  finish : Token.ofChunk chunk = .finish ↔ Text.isBlankText t = true
  delimiter : ∀ token ∈ Token.written,
    (Token.ofChunk chunk = token ↔ token.Begins (Text.trimFront t))
  others : Text.isBlankText t = false → (∀ token : Token, ¬ token.Begins (Text.trimFront t)) →
    Token.ofChunk chunk ∈ [.text, .wildcard, .orWord] ∧
      ∀ token : Token, ∀ mark ∈ token.marks, ¬ Text.Holds mark chunk

/-- Nothing is cut off a blank text, and something off any other. -/
theorem Cut.ofChunk_next_eq_finish_iff (labels : ClassLabels) (t : Text) :
    Token.ofChunk (next labels t).chunk = .finish ↔ Text.isBlankText t = true := by
  rw [Token.ofChunk_eq_finish_iff]
  constructor
  · intro hempty
    exact (StopSet.isBlankText_of_cut (Text.trim_eq_nil_iff.1 hempty)).1
  · intro hblank
    have hprefix := StopSet.trim_chunk_isPrefix labels .all t
    rw [Text.trimFront_eq_nil_iff.2 hblank] at hprefix
    exact List.prefix_nil.1 hprefix

/-- **The kind of a chunk is what the text begins with.** Whatever the classes are
called, as long as no character of a delimiter is in their names, a chunk is none
exactly if the text is blank, and it is a delimiter exactly if that delimiter
stands at the front of the text, behind blanks and in any letter case, `||` before
`|`. Any other chunk is a text, a wildcard or `OR`, and has no delimiter in it. -/
theorem Cut.next_classified (labels : ClassLabels) (hlabels : labels.Plain) (t : Text) :
    Classified (next labels t).chunk t := by
  have hnil := ofChunk_next_eq_finish_iff labels t
  cases hfound : firstDelimiter? StopSet.all.anywhere (Text.trimFront t) with
  | some parts =>
    have hchunk : (next labels t).chunk = Text.trim parts.1 := by
      rw [next, StopSet.cut, StopSet.delimiter?_of_plain hlabels hfound]
      rfl
    obtain ⟨token, hwritten, hbegins, htoken⟩ := Token.exists_begins hfound
    rw [← hchunk] at htoken
    refine ⟨hnil, fun other _ => ?_, fun _ hnone => absurd hbegins (hnone token)⟩
    rw [htoken]
    exact ⟨fun heq => heq ▸ hbegins, fun hother => hbegins.unique hother⟩
  | none =>
    have hfree (token : Token) (mark : Text) (hmark : mark ∈ token.marks) :
        ¬ Text.Holds mark (next labels t).chunk :=
      fun hholds => StopSet.not_holds_chunk hlabels hfound hmark hholds.of_trim
    have hother (token : Token) (hwritten : token ∈ Token.written) :
        Token.ofChunk (next labels t).chunk ≠ token := by
      intro htoken
      obtain ⟨mark, hmark, heq⟩ := Token.exists_eqIgnoreAsciiCase htoken hwritten
      exact hfree token mark hmark ⟨_, List.infix_rfl, heq⟩
    refine ⟨hnil, fun token hwritten => iff_of_false (hother token hwritten)
      (Token.not_begins hfound token), fun hblank _ => ⟨?_, hfree⟩⟩
    have hremaining : ∀ token : Token, token ∉ Token.written → token ≠ .finish →
        token ∈ [.text, .wildcard, .orWord] := by
      intro token
      cases token <;> decide
    refine hremaining _ (fun hwritten => hother _ hwritten rfl) fun hfinish => ?_
    rw [hnil.1 hfinish] at hblank
    cases hblank

/-- A `<q>` in capitals, behind blanks, on a German wiki. -/
theorem Cut.next_classified_openQuery :
    let labels : ClassLabels := ⟨"Kategorie".toList, "Konzept".toList⟩
    let t := "  <Q>[[Berlin]]</Q>".toList
    labels.Plain ∧ Token.ofChunk (next labels t).chunk = .openQuery ∧
      Classified (next labels t).chunk t := by
  intro labels t
  have hplain : labels.Plain := by decide +kernel
  exact ⟨hplain, by decide +kernel, next_classified labels hplain t⟩

end InlineQuery
