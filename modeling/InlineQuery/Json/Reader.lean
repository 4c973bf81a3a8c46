/-
Reading JSON, strictly: no comments, no trailing commas, no leading zeros,
no control characters inside strings, and nothing but blanks after the
value. Values may be nested to any depth.

Every step of the reader returns what it has not read along with a proof
that this is shorter than what it was given, and so the reader needs no
bound on its recursion.
-/
import InlineQuery.Json.Basic

namespace InlineQuery

namespace Json

/-- What was read from the front of a text, and the rest of it, which is
shorter. -/
structure Front (α : Type) (t : Text) where
  value : α
  rest : Text
  shorter : rest.length < t.length

/-- The blanks of JSON; there are only four. -/
def isJsonBlank (c : Char) : Bool := c == ' ' || c == '\t' || c == '\n' || c == '\r'

/-- A text without the blanks it starts with. -/
def skipBlanks (t : Text) : Text := t.dropWhile isJsonBlank

theorem skipBlanks_length_le (t : Text) : (skipBlanks t).length ≤ t.length :=
  (List.dropWhile_suffix isJsonBlank).length_le

-- ================================================================ strings

/-- The number that four hexadecimal digits write. -/
def hex4? (a b c d : Char) : Option Nat :=
  Text.digits? 16 Text.hexDigit? [a, b, c, d]

/-- The character that a letter stands for behind a backslash. -/
def escaped? : Char → Option Char
  | '"' => some '"'
  | '\\' => some '\\'
  | '/' => some '/'
  | 'b' => some '\x08'
  | 'f' => some '\x0c'
  | 'n' => some '\n'
  | 'r' => some '\r'
  | 't' => some '\t'
  | _ => none

/-- A string behind its opening quote, as numbers: the code points of its
characters, and for `\u` escapes what they write, which may be half of a
surrogate pair. -/
def readUnits? : (t : Text) → Option (Front (List Nat) t)
  | [] => none
  | '"' :: t => some ⟨[], t, by simp⟩
  | '\\' :: 'u' :: a :: b :: c :: d :: t =>
    match hex4? a b c d, readUnits? t with
    | some unit, some after =>
      some ⟨unit :: after.value, after.rest, by
        have := after.shorter; simp only [List.length_cons]; omega⟩
    | _, _ => none
  | '\\' :: c :: t =>
    match escaped? c, readUnits? t with
    | some char, some after =>
      some ⟨char.toNat :: after.value, after.rest, by
        have := after.shorter; simp only [List.length_cons]; omega⟩
    | _, _ => none
  | c :: t =>
    if c = '\\' || c.toNat < 0x20 then none
    else match readUnits? t with
      | some after =>
        some ⟨c.toNat :: after.value, after.rest, by
          have := after.shorter; simp only [List.length_cons]; omega⟩
      | none => none

/-- The text that the numbers of a string denote: surrogate pairs are
joined, and half a pair denotes nothing. -/
def joinSurrogates? : List Nat → Option Text
  | [] => some []
  | [unit] => if 0xd800 ≤ unit ∧ unit < 0xe000 then none else some [Char.ofNat unit]
  | high :: low :: rest =>
    if 0xd800 ≤ high ∧ high < 0xdc00 then
      if 0xdc00 ≤ low ∧ low < 0xe000 then
        (joinSurrogates? rest).map
          (Char.ofNat (0x10000 + (high - 0xd800) * 0x400 + (low - 0xdc00)) :: ·)
      else none
    else if 0xdc00 ≤ high ∧ high < 0xe000 then none
    else (joinSurrogates? (low :: rest)).map (Char.ofNat high :: ·)

-- ================================================================ numbers

/-- The characters that number literals are made of. -/
def isNumberChar (c : Char) : Bool :=
  c.isDigit || c == '-' || c == '+' || c == '.' || c == 'e' || c == 'E'

/-- A text of one or more digits. -/
def areDigits (t : Text) : Bool := !t.isEmpty && t.all Char.isDigit

/-- What may follow the integer part: a fraction, an exponent, or both. -/
def isTail (t : Text) : Bool :=
  let (fraction, exponent) := match t with
    | '.' :: t => (some (t.takeWhile Char.isDigit), t.dropWhile Char.isDigit)
    | _ => (none, t)
  fraction.all areDigits && match exponent with
    | [] => true
    | e :: digits =>
      (e == 'e' || e == 'E') && match digits with
        | '+' :: digits => areDigits digits
        | '-' :: digits => areDigits digits
        | _ => areDigits digits

/-- The value of a number literal. Minus zero is not an integer. -/
def number? (literal : Text) : Option Json :=
  let (negative, t) := match literal with
    | '-' :: t => (true, t)
    | _ => (false, literal)
  let whole := t.takeWhile Char.isDigit
  let tail := t.dropWhile Char.isDigit
  match Text.digits? 10 Text.digit? whole with
  | none => none
  | some n =>
    if whole.length > 1 ∧ whole.head? = some '0' then none
    else if tail.isEmpty then
      if negative then
        if n = 0 then some (.real literal) else some (.integer (-(n : Int)))
      else some (.integer n)
    else if isTail tail then some (.real literal)
    else none

-- ================================================================= values

/-- The rest of a text behind one of the three literal names. -/
def name? (name : Text) (value : Json) (t : Text) : Option (Front Json t) :=
  match Text.stripFront? name t with
  | some rest =>
    if h : rest.length < t.length then some ⟨value, rest, h⟩ else none
  | none => none

mutual

/-- The value at the front of a text that does not start with a blank. -/
def readValue? (t : Text) : Option (Front Json t) :=
  match h : t with
  | [] => none
  | '"' :: rest =>
    match readUnits? rest with
    | some units =>
      some ⟨.string (joinSurrogates? units.value), units.rest, by
        have := units.shorter; simp only [List.length_cons]; omega⟩
    | none => none
  | '[' :: rest =>
    have hskip := skipBlanks_length_le rest
    match hr : skipBlanks rest with
    | ']' :: after =>
      some ⟨.array [], after, by rw [hr] at hskip; simp only [List.length_cons] at *; omega⟩
    | _ =>
      match readElements? (skipBlanks rest) with
      | some elements =>
        some ⟨.array elements.value, elements.rest, by
          have := elements.shorter; simp only [List.length_cons]; omega⟩
      | none => none
  | '{' :: rest =>
    have hskip := skipBlanks_length_le rest
    match hr : skipBlanks rest with
    | '}' :: after =>
      some ⟨.object [], after, by rw [hr] at hskip; simp only [List.length_cons] at *; omega⟩
    | _ =>
      match readMembers? (skipBlanks rest) with
      | some members =>
        some ⟨.object members.value, members.rest, by
          have := members.shorter; simp only [List.length_cons]; omega⟩
      | none => none
  | 't' :: _ => h ▸ name? "true".toList (.bool true) t
  | 'f' :: _ => h ▸ name? "false".toList (.bool false) t
  | 'n' :: _ => h ▸ name? "null".toList .null t
  | c :: rest =>
    if c.isDigit || c == '-' then
      match number? (c :: rest.takeWhile isNumberChar) with
      | some value =>
        some ⟨value, rest.dropWhile isNumberChar, by
          have := (List.dropWhile_suffix isNumberChar (l := rest)).length_le
          simp only [List.length_cons]; omega⟩
      | none => none
    else none
termination_by (t.length, 0)
decreasing_by
  all_goals
    subst h
    apply Prod.Lex.left
    simp only [List.length_cons]
    omega

/-- The elements of an array up to its closing bracket. -/
def readElements? (t : Text) : Option (Front (List Json) t) :=
  match readValue? t with
  | none => none
  | some first =>
    have hfirst := first.shorter
    have hskip := skipBlanks_length_le first.rest
    match hr : skipBlanks first.rest with
    | ']' :: after =>
      some ⟨[first.value], after, by rw [hr] at hskip; simp only [List.length_cons] at *; omega⟩
    | ',' :: after =>
      have hafter := skipBlanks_length_le after
      match readElements? (skipBlanks after) with
      | some others =>
        some ⟨first.value :: others.value, others.rest, by
          have := others.shorter
          rw [hr] at hskip; simp only [List.length_cons] at *; omega⟩
      | none => none
    | _ => none
termination_by (t.length, 1)
decreasing_by
  · exact Prod.Lex.right _ (by omega)
  · apply Prod.Lex.left
    rw [hr] at hskip
    simp only [List.length_cons] at *
    omega

/-- The members of an object up to its closing brace. -/
def readMembers? (t : Text) : Option (Front (List (Option Text × Json)) t) :=
  match t with
  | '"' :: quoted =>
    match readUnits? quoted with
    | none => none
    | some key =>
      have hkey := key.shorter
      have hcolon := skipBlanks_length_le key.rest
      match hc : skipBlanks key.rest with
      | ':' :: valueText =>
        have hvalue := skipBlanks_length_le valueText
        match readValue? (skipBlanks valueText) with
        | none => none
        | some first =>
          have hfirst := first.shorter
          have hskip := skipBlanks_length_le first.rest
          let entry := (joinSurrogates? key.value, first.value)
          match hr : skipBlanks first.rest with
          | '}' :: after =>
            some ⟨[entry], after, by
              rw [hr] at hskip; rw [hc] at hcolon; simp only [List.length_cons] at *; omega⟩
          | ',' :: after =>
            have hafter := skipBlanks_length_le after
            match readMembers? (skipBlanks after) with
            | some others =>
              some ⟨entry :: others.value, others.rest, by
                have := others.shorter
                rw [hr] at hskip; rw [hc] at hcolon; simp only [List.length_cons] at *; omega⟩
            | none => none
          | _ => none
      | _ => none
  | _ => none
termination_by (t.length, 1)
decreasing_by
  · apply Prod.Lex.left
    rw [hc] at hcolon
    simp only [List.length_cons] at *
    omega
  · apply Prod.Lex.left
    rw [hr] at hskip
    rw [hc] at hcolon
    simp only [List.length_cons] at *
    omega

end

/-- The value that a document holds; none if it is not well-formed. -/
def read? (t : Text) : Option Json :=
  match readValue? (skipBlanks t) with
  | some document => if (skipBlanks document.rest).isEmpty then some document.value else none
  | none => none

end Json

end InlineQuery
