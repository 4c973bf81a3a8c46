/-
Which mark of a comparator is taken off a value.

The mark that is split off is the longest of all that the value begins with and
that are allowed, and a value without such a mark is compared for equality as it
stands (`Splits`, `split_eq_iff`). So the order in which the marks are tried is
no more than a way to find the longest one: none of them is longer than one that
is tried before it (`pairwise_marks`).

# Back from the symbol

A comparator is found again in front of a text, unless the text lends something
to the symbol (`split_symbol_append_iff`). The symbol of equality is empty, so
that the text must have no mark of its own; and `!` is the only symbol that is
the beginning of a longer mark, which is `!~`.
-/
import InlineQuery.Comparator

namespace InlineQuery

namespace Comparator

variable {strict : Bool} {allowed : List Comparator} {value rest mark : Text}
  {comparator comparator' : Comparator}

-- ==================================================================== marks

/-- A comparator is spelled by its symbol. A bare `<` or `>` spells one too, which
excludes the value itself if `strict`, and includes it otherwise. Equality has no
mark. -/
inductive Spells (strict : Bool) : Text → Comparator → Prop
  | symbol (comparator : Comparator) (ne_equal : comparator ≠ .equal) :
    Spells strict comparator.symbol comparator
  | bareLess : Spells strict ['<'] (if strict then .less else .lessEqual)
  | bareGreater : Spells strict ['>'] (if strict then .greater else .greaterEqual)

theorem mem_marks_iff : (mark, comparator) ∈ marks strict ↔ Spells strict mark comparator := by
  constructor
  · intro h
    simp only [marks, List.mem_cons, Prod.mk.injEq, List.not_mem_nil, or_false] at h
    rcases h with ⟨rfl, rfl⟩ | ⟨rfl, rfl⟩ | ⟨rfl, rfl⟩ | ⟨rfl, rfl⟩ | ⟨rfl, rfl⟩ | ⟨rfl, rfl⟩ |
      ⟨rfl, rfl⟩ | ⟨rfl, rfl⟩ | ⟨rfl, rfl⟩
    · exact .symbol .notLike (by decide)
    · exact .symbol .less (by decide)
    · exact .symbol .greater (by decide)
    · exact .symbol .lessEqual (by decide)
    · exact .symbol .greaterEqual (by decide)
    · exact .bareLess
    · exact .bareGreater
    · exact .symbol .notEqual (by decide)
    · exact .symbol .like (by decide)
  · rintro (⟨comparator, hne⟩ | - | -)
    · cases comparator <;> simp [marks, symbol] at hne ⊢
    · simp [marks]
    · simp [marks]

/-- No mark is longer than one that is tried before it. -/
theorem pairwise_marks (strict : Bool) :
    (marks strict).Pairwise fun first second => second.1.length ≤ first.1.length := by
  cases strict <;> decide

/-- A mark spells one comparator. -/
theorem Spells.unique (h : Spells strict mark comparator) (h' : Spells strict mark comparator') :
    comparator = comparator' := by
  have hall : ∀ first ∈ marks strict, ∀ second ∈ marks strict,
      first.1 = second.1 → first.2 = second.2 := by
    cases strict <;> decide
  exact hall _ (mem_marks_iff.2 h) _ (mem_marks_iff.2 h') rfl

theorem Spells.ne_equal (h : Spells strict mark comparator) : comparator ≠ .equal := by
  have hall : ∀ entry ∈ marks strict, entry.2 ≠ .equal := by
    cases strict <;> decide
  exact hall _ (mem_marks_iff.2 h)

-- ================================================================ splitting

/-- The value begins with the mark, and the comparator that it spells is
allowed. -/
structure Applies (strict : Bool) (allowed : List Comparator) (value mark : Text)
    (comparator : Comparator) : Prop where
  spells : Spells strict mark comparator
  mem : comparator ∈ allowed
  isPrefix : mark <+: value

/-- What a value is split into: the comparator of the longest mark that applies,
and the text behind that mark; or equality, and all of the value. -/
inductive Splits (strict : Bool) (allowed : List Comparator) (value : Text) :
    Comparator → Text → Prop
  | marked {mark rest : Text} {comparator : Comparator}
    (applies : Applies strict allowed value mark comparator)
    (longest : ∀ other comparator', Applies strict allowed value other comparator' →
      other.length ≤ mark.length)
    (append : mark ++ rest = value) : Splits strict allowed value comparator rest
  | unmarked (none : ∀ mark comparator, ¬ Applies strict allowed value mark comparator) :
    Splits strict allowed value .equal value

/-- There is one way to split a value. -/
theorem Splits.unique {rest' : Text} (h : Splits strict allowed value comparator rest)
    (h' : Splits strict allowed value comparator' rest') :
    comparator = comparator' ∧ rest = rest' := by
  cases h with
  | unmarked none =>
    cases h' with
    | unmarked => exact ⟨rfl, rfl⟩
    | marked applies => exact absurd applies (none _ _)
  | marked applies longest append =>
    cases h' with
    | unmarked none => exact absurd applies (none _ _)
    | marked applies' longest' append' =>
      -- both marks begin the value, and neither is longer than the other
      have hlength := Nat.le_antisymm (longest' _ _ applies) (longest _ _ applies')
      obtain ⟨rfl, hrest⟩ := List.append_inj (append.trans append'.symm) hlength
      exact ⟨applies.spells.unique applies'.spells, hrest⟩

/-- One mark is tried. -/
def attempt (allowed : List Comparator) (value : Text) (entry : Text × Comparator) :
    Option (Comparator × Text) :=
  if allowed.contains entry.2 then
    (Text.stripFront? entry.1 value).map fun rest => (entry.2, rest)
  else none

theorem split_eq (strict : Bool) (allowed : List Comparator) (value : Text) :
    split strict allowed value =
      ((marks strict).findSome? (attempt allowed value)).getD (.equal, value) := rfl

theorem attempt_eq_some_iff :
    attempt allowed value (mark, comparator) = some (comparator', rest) ↔
      comparator = comparator' ∧ comparator ∈ allowed ∧ mark ++ rest = value := by
  simp only [attempt, List.contains_iff_mem]
  split
  · next hmem =>
    simp only [Option.map_eq_some_iff, Text.stripFront?_eq_some_iff, Prod.mk.injEq, hmem, true_and]
    constructor
    · rintro ⟨rest, happend, rfl, rfl⟩
      exact ⟨rfl, happend.symm⟩
    · rintro ⟨rfl, happend⟩
      exact ⟨rest, happend.symm, rfl, rfl⟩
  · next hmem => simp [hmem]

theorem attempt_ne_none (h : Applies strict allowed value mark comparator) :
    attempt allowed value (mark, comparator) ≠ none := by
  obtain ⟨rest, happend⟩ := h.isPrefix
  rw [attempt_eq_some_iff.2 ⟨rfl, h.mem, happend⟩]
  exact Option.some_ne_none _

theorem splits_split (strict : Bool) (allowed : List Comparator) (value : Text) :
    Splits strict allowed value (split strict allowed value).1 (split strict allowed value).2 := by
  rw [split_eq]
  cases hfound : (marks strict).findSome? (attempt allowed value) with
  | none =>
    refine .unmarked fun mark comparator happlies => attempt_ne_none happlies ?_
    exact List.findSome?_eq_none_iff.1 hfound _ (mem_marks_iff.2 happlies.spells)
  | some parts =>
    obtain ⟨before, ⟨mark, comparator⟩, after, hlist, hentry, hearlier⟩ :=
      List.findSome?_eq_some_iff.1 hfound
    obtain ⟨rfl, hmem, happend⟩ := attempt_eq_some_iff.1 hentry
    have hspells : Spells strict mark parts.1 :=
      mem_marks_iff.1 (hlist ▸ List.mem_append_right before List.mem_cons_self)
    refine .marked ⟨hspells, hmem, parts.2, happend⟩ (fun other comparator' hother => ?_) happend
    -- what applies was not tried before, and what is tried later is no longer
    have hplace := mem_marks_iff.2 hother.spells
    have hordered := pairwise_marks strict
    rw [hlist] at hplace hordered
    rcases List.mem_append.1 hplace with hbefore | hplace
    · exact absurd (hearlier _ hbefore) (attempt_ne_none hother)
    · rcases List.mem_cons.1 hplace with heq | hafter
      · exact Nat.le_of_eq (congrArg List.length (Prod.mk.inj heq).1)
      · exact List.rel_of_pairwise_cons (List.pairwise_append.1 hordered).2.1 hafter

theorem split_eq_iff :
    split strict allowed value = (comparator, rest) ↔
      Splits strict allowed value comparator rest := by
  have hself := splits_split strict allowed value
  constructor
  · intro h
    rwa [h] at hself
  · intro h
    exact Prod.ext_iff.2 (hself.unique h)

theorem split_eq_equal_iff :
    split strict allowed value = (.equal, value) ↔
      ∀ mark comparator, ¬ Applies strict allowed value mark comparator := by
  rw [split_eq_iff]
  constructor
  · intro h
    cases h with
    | marked applies => exact absurd rfl applies.spells.ne_equal
    | unmarked none => exact none
  · exact .unmarked

-- ================================================================== symbols

/-- Only the symbol of inequality is the beginning of a longer mark. -/
theorem eq_notEqual_of_isPrefix (hne : comparator ≠ .equal) (h : Spells strict mark comparator')
    (hbegins : comparator.symbol <+: mark) (hlonger : comparator.symbol.length < mark.length) :
    comparator = .notEqual ∧ mark = ['!', '~'] ∧ comparator' = .notLike := by
  have hall : ∀ comparator ∈ all, ∀ entry ∈ marks strict,
      comparator ≠ .equal ∧ comparator.symbol.isPrefixOf entry.1 = true ∧
          comparator.symbol.length < entry.1.length →
        comparator = .notEqual ∧ entry = (['!', '~'], .notLike) := by
    cases strict <;> decide
  have hmem : comparator ∈ all := by
    cases comparator <;> decide
  obtain ⟨hself, hmark⟩ := hall comparator hmem _ (mem_marks_iff.2 h)
    ⟨hne, List.isPrefixOf_iff_prefix.2 hbegins, hlonger⟩
  exact ⟨hself, Prod.mk.inj hmark⟩

/-- A comparator is read back from in front of a text just if the text has no mark
that could be read instead, or that makes `!~` of `!`. -/
theorem split_symbol_append_iff (hmem : comparator ∈ allowed) {t : Text} :
    split strict allowed (comparator.symbol ++ t) = (comparator, t) ↔
      ¬ (comparator = .equal ∧ ∃ mark other, Applies strict allowed t mark other) ∧
        ¬ (comparator = .notEqual ∧ .notLike ∈ allowed ∧ ['~'] <+: t) := by
  by_cases hequal : comparator = .equal
  · subst hequal
    rw [show Comparator.equal.symbol ++ t = t from rfl, split_eq_equal_iff]
    constructor
    · intro hnone
      refine ⟨?_, fun h => absurd h.1 (by decide)⟩
      rintro ⟨-, mark, other, happlies⟩
      exact hnone mark other happlies
    · rintro ⟨hnone, -⟩ mark other happlies
      exact hnone ⟨rfl, mark, other, happlies⟩
  · rw [split_eq_iff]
    constructor
    · intro hsplits
      refine ⟨fun h => hequal h.1, ?_⟩
      rintro ⟨rfl, hnotLike, u, rfl⟩
      -- the longer mark applies, and leaves less than `~` and what follows it
      cases hsplits with
      | marked applies longest append =>
        have hlonger := longest ['!', '~'] .notLike
          ⟨.symbol .notLike (by decide), hnotLike, ⟨u, rfl⟩⟩
        have hlength := congrArg List.length append
        simp only [symbol, List.length_append, List.length_cons, List.length_nil] at hlonger hlength
        omega
    · rintro ⟨-, htilde⟩
      refine .marked ⟨.symbol comparator hequal, hmem, List.prefix_append _ _⟩
        (fun other comparator' hother => Nat.le_of_not_lt fun hlonger => htilde ?_) rfl
      have hbegins : comparator.symbol <+: other :=
        List.prefix_of_prefix_length_le (List.prefix_append _ _) hother.isPrefix
          (Nat.le_of_lt hlonger)
      obtain ⟨rfl, rfl, rfl⟩ := eq_notEqual_of_isPrefix hequal hother.spells hbegins hlonger
      exact ⟨rfl, hother.mem, (List.cons_prefix_cons.1 hother.isPrefix).2⟩

/-- **The longest allowed mark is split off.** Whatever the value and the
comparators that are allowed, the value is split behind the longest mark of an
allowed comparator that it begins with, and it is compared for equality as it
stands just if there is none. An allowed comparator is read back from its symbol
in front of any text, except that equality is not in front of a text with such a
mark, and inequality is not in front of `~` where `!~` is allowed. -/
theorem split_takes_longest_mark (strict : Bool) (allowed : List Comparator) (value : Text) :
    (∀ comparator rest, split strict allowed value = (comparator, rest) ↔
      Splits strict allowed value comparator rest) ∧
    (split strict allowed value = (.equal, value) ↔
      ∀ mark comparator, ¬ Applies strict allowed value mark comparator) ∧
    ∀ comparator ∈ allowed, ∀ t, split strict allowed (comparator.symbol ++ t) = (comparator, t) ↔
      ¬ (comparator = .equal ∧ ∃ mark other, Applies strict allowed t mark other) ∧
        ¬ (comparator = .notEqual ∧ .notLike ∈ allowed ∧ ['~'] <+: t) :=
  ⟨fun _ _ => split_eq_iff, split_eq_equal_iff, fun _ hmem _ => split_symbol_append_iff hmem⟩

/-- Where `!~` is not allowed, inequality is read in front of `~`, too. -/
theorem split_notEqual_before_tilde :
    let allowed : List Comparator := [.notEqual, .like]
    .notEqual ∈ allowed ∧ split false allowed "!~x".toList = (.notEqual, "~x".toList) := by
  intro allowed
  have hmem : .notEqual ∈ allowed := by decide
  have hsplit := (split_takes_longest_mark false allowed "!~x".toList).2.2 .notEqual hmem
  exact ⟨hmem, (hsplit "~x".toList).2
    ⟨fun h => absurd h.1 (by decide), fun h => absurd h.2.1 (by decide)⟩⟩

end Comparator

end InlineQuery
