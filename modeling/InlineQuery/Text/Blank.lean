/-
Blanks: the characters of the Unicode property White_Space. They separate
words, surround delimiters and may be trimmed from a text at either end.

Zero-width and formatting characters (U+200B, U+FEFF, the information
separators U+001C to U+001F) are not blanks.
-/
import InlineQuery.Text.Basic

namespace InlineQuery

/-- The ranges of the property White_Space, first and last code point. -/
def blankRanges : List (Nat × Nat) :=
  [ (0x9, 0xd), (0x20, 0x20), (0x85, 0x85), (0xa0, 0xa0), (0x1680, 0x1680), (0x2000, 0x200a),
    (0x2028, 0x2029), (0x202f, 0x202f), (0x205f, 0x205f), (0x3000, 0x3000) ]

/-- The character has the property White_Space. -/
def isBlank (c : Char) : Bool :=
  blankRanges.any fun range => range.1 ≤ c.toNat && c.toNat ≤ range.2

namespace Text

/-- A text without the blanks it starts with. -/
def trimFront (t : Text) : Text := t.dropWhile isBlank

/-- A text without the blanks it ends with. -/
def trimBack : Text → Text
  | [] => []
  | c :: t =>
    match trimBack t with
    | [] => if isBlank c then [] else [c]
    | d :: u => c :: d :: u

/-- A text without the blanks at either end. -/
def trim (t : Text) : Text := trimBack (trimFront t)

/-- Only blanks, or nothing at all. -/
def isBlankText (t : Text) : Bool := t.all isBlank

/-- The words of a text: its longest runs of characters that are not
blanks. -/
def words : Text → List Text
  | [] => []
  | c :: t =>
    if isBlank c then words t
    else match t, words t with
      | d :: _, word :: rest => if isBlank d then [c] :: word :: rest else (c :: word) :: rest
      | _, rest => [c] :: rest

theorem isBlank_space : isBlank ' ' = true := by decide

theorem trimFront_eq_nil_iff {t : Text} : trimFront t = [] ↔ isBlankText t = true := by
  induction t with
  | nil => simp [trimFront, isBlankText]
  | cons c t ih =>
    simp only [trimFront, isBlankText, List.dropWhile_cons, List.all_cons] at ih ⊢
    by_cases h : isBlank c <;> simp [h, ih]

theorem trimBack_eq_nil_iff {t : Text} : trimBack t = [] ↔ isBlankText t = true := by
  induction t with
  | nil => simp [trimBack, isBlankText]
  | cons c t ih =>
    simp only [isBlankText] at ih
    rw [trimBack, isBlankText, List.all_cons]
    cases hb : trimBack t with
    | nil =>
      have ht := ih.1 hb
      by_cases h : isBlank c <;> simp [h, ht]
    | cons d u =>
      have ht : List.all t isBlank = false := by
        cases hall : List.all t isBlank with
        | false => rfl
        | true => rw [ih.2 hall] at hb; cases hb
      simp [ht]

theorem trimFront_length_le (t : Text) : (trimFront t).length ≤ t.length := by
  induction t with
  | nil => simp [trimFront]
  | cons c t ih =>
    simp only [trimFront, List.dropWhile_cons] at ih ⊢
    split
    · simp only [List.length_cons]; omega
    · exact Nat.le_refl _

/-- Trimming leaves nothing of a text exactly when it is blank. -/
theorem trim_eq_nil_iff {t : Text} : trim t = [] ↔ isBlankText t = true := by
  rw [trim, trimBack_eq_nil_iff]
  constructor
  · intro h
    rw [← trimFront_eq_nil_iff]
    cases ht : trimFront t with
    | nil => rfl
    | cons c u =>
      have hc : isBlank c = false := by
        have := List.head?_dropWhile_not isBlank t
        rw [show t.dropWhile isBlank = c :: u from ht] at this
        simpa using this
      rw [ht] at h
      simp [isBlankText, hc] at h
  · intro h
    rw [trimFront_eq_nil_iff.2 h]
    rfl

end Text

end InlineQuery
