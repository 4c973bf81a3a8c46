/-
Which values are read back.

A value is written as the mark of its comparator with the item behind it, and
nothing between them. What is read from that is the value again, unless the item
gets in the way of the mark or is itself not read back (`value_write_iff`).

# What can go wrong

A text that is compared for inequality may begin with `~`, and then `!~` is read.
A page that is compared for equality may have a title that begins with the mark of
some comparator: titles are normalized behind the mark, and an underscore or a
colon in front of the title, which kept it apart, is gone. And the name of a
namespace may be lost, or be found where there was none; that is the matter of
`FullTitles`.

A page that is written as an atom of its own is kept from the first two by a colon
in front of it. A page that is a value has none.
-/
import InlineQuery.Proofs.Titles.FullTitles
import InlineQuery.Proofs.Writing.Values

namespace InlineQuery

open Description

namespace Reader

-- =============================================================== comparators

section comparators

variable {strict : Bool} {allowed : List Comparator} {t literal : Text}

/-- What is compared for equality has no sign in front of it. -/
theorem head_of_split_equal (hallowed : ∀ comparator, comparator ∈ allowed)
    (h : Comparator.split strict allowed t = (.equal, literal)) :
    literal = t ∧ ∀ c ∈ t.head?, c ∉ comparatorSigns := by
  cases Comparator.split_eq_iff.1 h with
  | marked applies => exact absurd rfl applies.spells.ne_equal
  | unmarked none =>
    refine ⟨rfl, fun c hc hsign => ?_⟩
    obtain ⟨mark, other, happlies⟩ := (exists_applies_iff hallowed).2 ⟨c, hc, hsign⟩
    exact none mark other happlies

end comparators

-- ==================================================================== values

variable {config : Config} {property : Property} {valueType : ValueType} {t w : Text}
  {item : Item} {comparator : Comparator}

/-- The conditions that a text makes on the values of a property. -/
theorem value_eq_iff {p : Option Property} {prints : List PrintRequest} :
    (value config property valueType t).1 = .value item p comparator prints ↔
      p = some property ∧ prints = [] ∧ ∃ literal,
        Comparator.split config.strictComparators config.comparators (Text.trim t) =
          (comparator, literal) ∧ item? config valueType (Text.trim literal) = some item := by
  unfold value
  dsimp only
  cases hsplit : Comparator.split config.strictComparators config.comparators (Text.trim t) with
  | mk found literal =>
    dsimp only
    cases hitem : item? config valueType (Text.trim literal) with
    | none =>
      refine iff_of_false Description.noConfusion ?_
      rintro ⟨-, -, other, heq, hsome⟩
      obtain ⟨-, rfl⟩ := Prod.mk.inj heq
      rw [hitem] at hsome
      cases hsome
    | some read =>
      constructor
      · intro h
        cases h
        exact ⟨rfl, rfl, literal, rfl, hitem⟩
      · rintro ⟨rfl, rfl, other, heq, hsome⟩
        obtain ⟨rfl, rfl⟩ := Prod.mk.inj heq
        rw [hitem] at hsome
        cases hsome
        rfl

/-- A mark is no blank, so nothing is trimmed away in front of what stands behind
it. -/
theorem trim_symbol_append (hne : comparator ≠ .equal) (hw : w ≠ [])
    (hlast : ∀ c ∈ w.getLast?, isBlank c = false) :
    Text.trim (comparator.symbol ++ w) = comparator.symbol ++ w := by
  have hsolid : ∀ comparator ∈ Comparator.all, comparator ≠ .equal →
      comparator.symbol.head?.any (!isBlank ·) = true := by
    decide
  have hall : comparator ∈ Comparator.all := by
    cases comparator <;> decide
  obtain ⟨c, hc, hblank⟩ := (Option.any_eq_true _ _).1 (hsolid comparator hall hne)
  refine Text.trim_eq_self (fun d hd => ?_) fun d hd => hlast d (Text.mem_getLast?_of_append hw hd)
  rw [List.head?_append, hc] at hd
  cases hd
  simpa using hblank

/-- **A mark and a text behind it are a value just if the two stay apart.** -/
theorem value_symbol_append_iff (hallowed : ∀ comparator, comparator ∈ config.comparators)
    (hw : w ≠ []) (hlast : ∀ c ∈ w.getLast?, isBlank c = false) :
    (value config property valueType (comparator.symbol ++ w)).1 =
        .value item (some property) comparator [] ↔
      (comparator = .equal → ∀ c ∈ (Text.trimFront w).head?, c ∉ comparatorSigns) ∧
        (comparator = .notEqual → w.head? ≠ some '~') ∧
        item? config valueType (Text.trim w) = some item := by
  rw [value_eq_iff]
  by_cases hequal : comparator = .equal
  · subst hequal
    have htrim : Text.trim (Comparator.equal.symbol ++ w) = Text.trimFront w :=
      Text.trim_of_getLast? hlast
    rw [htrim]
    constructor
    · rintro ⟨-, -, literal, hsplit, hitem⟩
      obtain ⟨rfl, hhead⟩ := head_of_split_equal hallowed hsplit
      rw [Text.trim, Text.trimFront_trimFront] at hitem
      exact ⟨fun _ => hhead, fun heq => absurd heq (by decide), hitem⟩
    · rintro ⟨hhead, -, hitem⟩
      refine ⟨rfl, rfl, Text.trimFront w, ?_, ?_⟩
      · exact split_symbol_append config.strictComparators hallowed .equal hhead
          fun heq => absurd heq (by decide)
      · rwa [Text.trim, Text.trimFront_trimFront]
  · rw [trim_symbol_append hequal hw hlast]
    by_cases htilde : comparator = .notEqual ∧ w.head? = some '~'
    · obtain ⟨rfl, hhead⟩ := htilde
      obtain ⟨rest, rfl⟩ := List.head?_eq_some_iff.1 hhead
      have hother := split_symbol_append config.strictComparators hallowed .notLike (t := rest)
        (fun heq => absurd heq (by decide)) fun heq => absurd heq (by decide)
      refine iff_of_false ?_ fun h => h.2.1 rfl rfl
      rintro ⟨-, -, literal, hsplit, -⟩
      exact absurd (Prod.mk.inj (hother.symm.trans hsplit)).1 (by decide)
    · have hsplit := split_symbol_append config.strictComparators hallowed comparator (t := w)
        (fun heq => absurd heq hequal) (fun heq hhead => htilde ⟨heq, hhead⟩)
      constructor
      · rintro ⟨-, -, literal, hread, hitem⟩
        obtain rfl := (Prod.mk.inj (hsplit.symm.trans hread)).2
        exact ⟨fun heq => absurd heq hequal, fun heq hhead => htilde ⟨heq, hhead⟩, hitem⟩
      · rintro ⟨-, -, hitem⟩
        exact ⟨rfl, rfl, w, hsplit, hitem⟩

theorem page?_trim (config : Config) (t : Text) : page? config (Text.trim t) = page? config t := by
  ext page
  rw [page?_eq_some_iff, page?_eq_some_iff, Text.afterColon_trim]

-- ============================================================ written items

/-- An item is not written as nothing, and no blank is written behind it. -/
theorem write_of_item? (htype : valueType ≠ .number)
    (h : item? config valueType (Text.trim t) = some item) :
    item.write ≠ [] ∧ ∀ c ∈ item.write.getLast?, isBlank c = false := by
  cases valueType with
  | number => exact absurd rfl htype
  | text =>
    rw [item?] at h
    split at h
    · cases h
    · next hne =>
      cases h
      exact ⟨fun hnil => hne (List.isEmpty_iff.2 hnil), Text.getLast?_trimBack _⟩
  | page =>
    obtain ⟨page, hpage, rfl⟩ := Option.map_eq_some_iff.1 h
    have htitle := isTitle_of_normalizeTitle? (normalized_of_page? hpage)
    have hends := htitle.isBlank_ends.2
    show page.fullTitle ≠ [] ∧ ∀ c ∈ page.fullTitle.getLast?, isBlank c = false
    rw [Page.fullTitle]
    split
    · exact ⟨htitle.ne_nil, hends⟩
    · refine ⟨List.append_ne_nil_of_right_ne_nil _ (List.cons_ne_nil _ _), fun c hc => ?_⟩
      have hlast := Text.mem_getLast?_of_append (List.cons_ne_nil _ _) hc
      rw [List.getLast?_cons_of_ne_nil htitle.ne_nil] at hlast
      exact hends c hlast

/-- The full title of a page is read as that page just if it names no other. -/
theorem item?_fullTitle_iff {page : Page} (h : page? config t = some page) :
    item? config .page (Text.trim page.fullTitle) = some (.page page) ↔
      config.Recovers page := by
  rw [item?, page?_trim, ← page?_fullTitle_iff h]
  constructor
  · intro hsome
    obtain ⟨other, hother, heq⟩ := Option.map_eq_some_iff.1 hsome
    rw [hother, Item.page.inj heq]
  · intro hsome
    rw [hsome]
    rfl

/-- **Which values are read back.** Where all comparators are recognized, a value of
a property whose values are pages or texts is read back from what is written of it
just if `!` does not stand in front of `~`, and, if it is a page, nothing else is
named by its full title and a title that is compared for equality begins with no
sign of another comparator. -/
theorem value_write_iff (hallowed : ∀ comparator, comparator ∈ config.comparators)
    (htype : valueType ≠ .number) {p : Option Property} {prints : List PrintRequest}
    (h : (value config property valueType t).1 = .value item p comparator prints) :
    (value config property valueType
        ((Description.value item p comparator prints).writeAt .value)).1 =
          .value item p comparator prints ↔
      (comparator = .notEqual → item.write.head? ≠ some '~') ∧
        ∀ page, item = .page page → config.Recovers page ∧
          (comparator = .equal → ∀ c ∈ (Text.trimFront page.fullTitle).head?,
            c ∉ comparatorSigns) := by
  obtain ⟨rfl, rfl, literal, hsplit, hitem⟩ := value_eq_iff.1 h
  obtain ⟨hne, hlast⟩ := write_of_item? htype hitem
  show (value config property valueType (comparator.symbol ++ item.write)).1 = _ ↔ _
  rw [value_symbol_append_iff hallowed hne hlast]
  cases valueType with
  | number => exact absurd rfl htype
  | page =>
    obtain ⟨page, hpage, rfl⟩ := Option.map_eq_some_iff.1 hitem
    have hback := item?_fullTitle_iff hpage
    constructor
    · rintro ⟨hequal, htilde, hread⟩
      refine ⟨htilde, fun other hother => ?_⟩
      cases hother
      exact ⟨hback.1 hread, hequal⟩
    · rintro ⟨htilde, hpages⟩
      obtain ⟨hrecovers, hequal⟩ := hpages page rfl
      exact ⟨hequal, htilde, hback.2 hrecovers⟩
  | text =>
    rw [item?] at hitem
    split at hitem
    · cases hitem
    · next hfull =>
      cases hitem
      have hself : item? config .text (Text.trim (Text.trim literal)) =
          some (.text (Text.trim literal)) := by
        rw [item?, Text.trim_trim, if_neg hfull]
      constructor
      · rintro ⟨-, htilde, -⟩
        refine ⟨htilde, fun page hpage => ?_⟩
        cases hpage
      · rintro ⟨htilde, -⟩
        refine ⟨?_, htilde, hself⟩
        rintro rfl
        -- it had no sign in front of it when it was read
        obtain ⟨rfl, hhead⟩ := head_of_split_equal hallowed hsplit
        show ∀ c ∈ (Text.trimFront (Text.trim (Text.trim t))).head?, c ∉ comparatorSigns
        rw [Text.trim_trim, Text.trimFront_eq_self (Text.head?_trim t)]
        exact hhead

/-- A page of a namespace behind a mark. -/
theorem value_write_help :
    let config : Config := {}
    let property : Property := ⟨"Located in".toList, false⟩
    let v : Description := .value (.page ⟨12, "Help".toList, "City".toList⟩) (some property)
      .notEqual []
    (value config property .page "! help:city ".toList).1 = v ∧
      v.writeAt .value = "!Help:City".toList ∧
      (value config property .page (v.writeAt .value)).1 = v := by
  intro config property v
  have hread : (value config property .page "! help:city ".toList).1 = v := by decide +kernel
  have hrecovers : config.Recovers ⟨12, "Help".toList, "City".toList⟩ := by
    unfold Config.Recovers
    decide +kernel
  refine ⟨hread, by decide +kernel, ?_⟩
  refine (value_write_iff (by intro c; cases c <;> decide) (by decide) hread).2 ⟨by decide, ?_⟩
  rintro page ⟨⟩
  exact ⟨hrecovers, fun heq => absurd heq (by decide)⟩

/-- The title `!x`, which an underscore keeps apart from the marks, is read back as
the page `X`, and not to be equal to it is asked. The text `~x`, which is not to be
equal, is read back as a pattern. -/
theorem value_is_not_read_back :
    let config : Config := {}
    let property : Property := ⟨"P".toList, false⟩
    let page (title : Text) (comparator : Comparator) : Description :=
      .value (.page (Page.main title)) (some property) comparator []
    let text (t : Text) (comparator : Comparator) : Description :=
      .value (.text t) (some property) comparator []
    (∀ comparator, comparator ∈ config.comparators) ∧
      value config property .page "_!x".toList = (page "!x".toList .equal, none) ∧
      (page "!x".toList .equal).writeAt .value = "!x".toList ∧
      value config property .page "!x".toList = (page "X".toList .notEqual, none) ∧
      value config property .text "! ~x".toList = (text "~x".toList .notEqual, none) ∧
      (text "~x".toList .notEqual).writeAt .value = "!~x".toList ∧
      value config property .text "!~x".toList = (text "x".toList .notLike, none) := by
  intro config property page text
  refine ⟨by intro c; cases c <;> decide, ?_⟩
  decide +kernel

end Reader

end InlineQuery
