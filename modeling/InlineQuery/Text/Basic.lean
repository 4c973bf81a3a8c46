/-
Text is a list of Unicode scalar values: every rule of the query language
is a rule about characters, so splitting, replacing and comparing are
ordinary list recursion.

What is split off from a text can be put back (`splitOnce?_eq_some_iff`), and
what was joined can be split again (`splitAll_join`).
-/

namespace InlineQuery

/-- A text is the list of its characters. -/
abbrev Text := List Char

namespace Text

-- ======================================================== front and back

/-- What follows `front` in a text that starts with it. -/
def stripFront? (front : Text) (t : Text) : Option Text :=
  match front, t with
  | [], t => some t
  | _ :: _, [] => none
  | c :: front, d :: t => if c = d then stripFront? front t else none

/-- A text without its last character, provided that one is `c`. -/
def stripLast? (c : Char) (t : Text) : Option Text :=
  match t with
  | [] => none
  | [d] => if d = c then some [] else none
  | d :: e :: t => (stripLast? c (e :: t)).map (d :: ·)

theorem stripFront?_eq_some_iff {front t rest : Text} :
    stripFront? front t = some rest ↔ t = front ++ rest := by
  induction front generalizing t with
  | nil => simp [stripFront?, eq_comm]
  | cons c front ih =>
    cases t with
    | nil => simp [stripFront?]
    | cons d t =>
      by_cases h : c = d
      · subst h; simp [stripFront?, ih]
      · have h' : ¬ d = c := fun e => h e.symm
        simp [stripFront?, h, h']

theorem stripLast?_eq_some_iff {c : Char} {t front : Text} :
    stripLast? c t = some front ↔ t = front ++ [c] := by
  induction t generalizing front with
  | nil => simp [stripLast?]
  | cons d t ih =>
    cases t with
    | nil =>
      by_cases h : d = c
      · subst h
        cases front <;> simp [stripLast?]
      · cases front <;> simp [stripLast?, h]
    | cons e t =>
      cases front with
      | nil => simp [stripLast?]
      | cons f front =>
        simp only [stripLast?, Option.map_eq_some_iff, List.cons_append, List.cons.injEq]
        constructor
        · rintro ⟨a, ha, rfl, rfl⟩
          exact ⟨rfl, ih.1 ha⟩
        · rintro ⟨rfl, h⟩
          exact ⟨front, ih.2 h, rfl, rfl⟩

-- ============================================================= splitting

/-- The parts before and after the first `c`, if there is one. -/
def splitOnce? (c : Char) : Text → Option (Text × Text)
  | [] => none
  | d :: t =>
    if d = c then some ([], t)
    else (splitOnce? c t).map fun parts => (d :: parts.1, parts.2)

/-- The parts between the occurrences of `c`; one more than there are of
them, so never none. -/
def splitAll (c : Char) : Text → List Text
  | [] => [[]]
  | d :: t =>
    if d = c then [] :: splitAll c t
    else match splitAll c t with
      | [] => [[d]]
      | part :: parts => (d :: part) :: parts

/-- Each `a` becomes a `b`. -/
def replace (a b : Char) (t : Text) : Text :=
  t.map fun c => if c = a then b else c

/-- The parts with `separator` between any two of them. -/
def join (separator : Text) : List Text → Text
  | [] => []
  | [t] => t
  | t :: u :: ts => t ++ separator ++ join separator (u :: ts)

theorem splitAll_of_not_mem {c : Char} {t : Text} (h : c ∉ t) : splitAll c t = [t] := by
  induction t with
  | nil => rfl
  | cons d t ih =>
    have hd : d ≠ c := fun heq => h (heq ▸ List.mem_cons_self)
    rw [splitAll, if_neg hd, ih fun hmem => h (List.mem_cons_of_mem d hmem)]

theorem splitAll_append {c : Char} {part : Text} (h : c ∉ part) (t : Text) :
    splitAll c (part ++ c :: t) = part :: splitAll c t := by
  induction part with
  | nil => rw [List.nil_append, splitAll, if_pos rfl]
  | cons d part ih =>
    have hd : d ≠ c := fun heq => h (heq ▸ List.mem_cons_self)
    rw [List.cons_append, splitAll, if_neg hd, ih fun hmem => h (List.mem_cons_of_mem d hmem)]

/-- Parts that are set off by a character which none of them has are found
again. -/
theorem splitAll_join {c : Char} {parts : List Text} (hne : parts ≠ [])
    (h : ∀ part ∈ parts, c ∉ part) : splitAll c (join [c] parts) = parts := by
  induction parts with
  | nil => exact absurd rfl hne
  | cons part parts ih =>
    obtain ⟨hpart, hparts⟩ := List.forall_mem_cons.1 h
    cases parts with
    | nil => exact splitAll_of_not_mem hpart
    | cons following parts =>
      rw [join, List.append_assoc]
      exact (splitAll_append hpart _).trans
        (congrArg (part :: ·) (ih (List.cons_ne_nil _ _) hparts))

theorem splitOnce?_eq_some_iff {c : Char} {t before after : Text} :
    splitOnce? c t = some (before, after) ↔ t = before ++ c :: after ∧ c ∉ before := by
  induction t generalizing before with
  | nil => simp [splitOnce?]
  | cons d t ih =>
    by_cases h : d = c
    · subst h
      cases before with
      | nil => simp [splitOnce?, eq_comm]
      | cons b before =>
        simp only [splitOnce?, if_true, Option.some.injEq, Prod.mk.injEq, List.cons_append,
          List.cons.injEq, List.mem_cons, not_or]
        constructor
        · rintro ⟨h, -⟩; cases h
        · rintro ⟨⟨rfl, -⟩, hne, -⟩; exact absurd rfl hne
    · cases before with
      | nil => simp [splitOnce?, h]
      | cons b before =>
        simp only [splitOnce?, if_neg h, Option.map_eq_some_iff, Prod.mk.injEq, List.cons_append,
          List.cons.injEq, List.mem_cons, not_or]
        constructor
        · rintro ⟨⟨x, y⟩, hxy, ⟨rfl, rfl⟩, rfl⟩
          obtain ⟨ht, hb⟩ := ih.1 hxy
          exact ⟨⟨rfl, ht⟩, fun e => h e.symm, hb⟩
        · rintro ⟨⟨rfl, ht⟩, -, hb⟩
          exact ⟨(before, after), ih.2 ⟨ht, hb⟩, ⟨rfl, rfl⟩, rfl⟩

-- ==================================================== ASCII letter case

/-- Equality up to the case of the letters `A` to `Z`; every other character
stands for itself alone. -/
def eqIgnoreAsciiCase (s t : Text) : Bool :=
  s.map Char.toLower == t.map Char.toLower

-- ================================================================== order

/-- The first text comes no later than the second: the order of their code
points, a text after all its beginnings. -/
def le : Text → Text → Bool
  | [], _ => true
  | _ :: _, [] => false
  | c :: s, d :: t =>
    if c.toNat < d.toNat then true else if d.toNat < c.toNat then false else le s t

-- ============================================================== numerals

/-- The decimal digits of a natural number, without leading zeros. -/
def ofNat (n : Nat) : Text := Nat.toDigits 10 n

/-- An integer in decimal digits, with a minus sign if it is negative. -/
def ofInt : Int → Text
  | .ofNat n => ofNat n
  | .negSucc n => '-' :: ofNat (n + 1)

/-- A natural number in lower-case hexadecimal digits. -/
def hex (n : Nat) : Text := Nat.toDigits 16 n

/-- The value of an ASCII decimal digit. -/
def digit? (c : Char) : Option Nat :=
  if c.isDigit then some (c.toNat - '0'.toNat) else none

/-- The value of an ASCII hexadecimal digit of either case. -/
def hexDigit? (c : Char) : Option Nat :=
  if c.isDigit then some (c.toNat - '0'.toNat)
  else if 'a' ≤ c ∧ c ≤ 'f' then some (c.toNat - 'a'.toNat + 10)
  else if 'A' ≤ c ∧ c ≤ 'F' then some (c.toNat - 'A'.toNat + 10)
  else none

/-- The number that digits write in the given base; none for an empty text
or a character that is no digit. -/
def digits? (base : Nat) (value : Char → Option Nat) (t : Text) : Option Nat :=
  if t.isEmpty then none
  else t.foldlM (fun n c => (value c).map (n * base + ·)) 0

/-- A natural number below `bound`: decimal digits after at most one plus
sign. -/
def natBelow? (bound : Nat) (t : Text) : Option Nat :=
  let body := match t with
    | '+' :: rest => rest
    | _ => t
  match digits? 10 digit? body with
  | some n => if n < bound then some n else none
  | none => none

/-- An integer from `-bound` to `bound - 1`: decimal digits after at most
one sign. -/
def intWithin? (bound : Nat) (t : Text) : Option Int :=
  match t with
  | '-' :: rest =>
    match digits? 10 digit? rest with
    | some n => if n ≤ bound then some (-(n : Int)) else none
    | none => none
  | _ => (natBelow? bound t).map Int.ofNat

end Text

end InlineQuery
