/-
Reading the values of properties.

A value is written in front of the end of its atom or of a further value,
and is read as a condition that is combined with those in front of it
(`ReadsAsOne`). From one value the step to a list of them is an induction
over the list (`readsAsValues_join`). Values that are subqueries are the
matter of `RoundTrip`.
-/
import InlineQuery.Proofs.Writing.Comparators
import InlineQuery.Proofs.Writing.Properties

namespace InlineQuery

open Description

namespace Reader

open StopSet

variable {r : Reader} {s : State} {c : Chain}

/-- In front of an ending, the text is read as one value that makes the
condition. -/
def ReadsAsOne (r : Reader) (c : Chain) (text : Text) (inner : Description) : Prop :=
  ∀ (s : State) (result : Option Description) (ending k : Text), IsEnding ending →
    s.rest = text ++ (ending ++ k) →
    (r.readOneValue c result s).val =
      ⟨(InlineQuery.combine r.config.features .disjunctive result (some inner)).result,
        ⟨ending, { s with rest := k }⟩⟩

-- ==================================================================== lists

theorem readsAsValues_of_one (hr : r.Standard) {text : Text} {inner : Description}
    (h : r.ReadsAsOne c text inner) : r.ReadsAsValues c text inner := by
  intro s k hrest
  rw [List.append_assoc] at hrest
  have hone := h s none _ k .closing hrest
  rw [readValues_last (by rw [hone]; show Token.ofChunk [']', ']'] ≠ .bars; decide), hone,
    combine_none hr.config.features]

/-- Values with bars between them are combined one by one. -/
theorem readsAsValues_join {write : Description → Text} {ds : List Description}
    {inner : Description} (hne : ds ≠ []) (hds : ∀ d ∈ ds, r.ReadsAsOne c (write d) d)
    (hinner : combineEach r.config.features .disjunctive none ds = some inner) :
    r.ReadsAsValues c (Text.join ['|', '|'] (ds.map write)) inner := by
  have hall (ds : List Description) (hne : ds ≠ []) (hds : ∀ d ∈ ds, r.ReadsAsOne c (write d) d)
      (s : State) (result : Option Description) (k : Text)
      (hrest : s.rest = Text.join ['|', '|'] (ds.map write) ++ ([']', ']'] ++ k)) :
      (r.readValues c result s).val =
        ⟨combineEach r.config.features .disjunctive result ds,
          ⟨[']', ']'], { s with rest := k }⟩⟩ := by
    induction ds generalizing s result with
    | nil => exact absurd rfl hne
    | cons d ds ih =>
      cases ds with
      | nil =>
        have hone := hds d List.mem_cons_self s result _ k .closing hrest
        rw [readValues_last (by rw [hone]; show Token.ofChunk [']', ']'] ≠ .bars; decide), hone]
        rfl
      | cons e ds =>
        have hsplit : s.rest = write d ++ (['|', '|'] ++
            (Text.join ['|', '|'] ((e :: ds).map write) ++ ([']', ']'] ++ k))) := by
          rw [hrest, List.map_cons, List.map_cons, Text.join]
          simp only [List.append_assoc]
        have hone := hds d List.mem_cons_self s result _ _ .bars hsplit
        rw [readValues_more (by rw [hone]; rfl), hone]
        exact ih (List.cons_ne_nil e ds) (fun x hx => hds x (List.mem_cons_of_mem d hx)) _ _ rfl
  intro s k hrest
  rw [List.append_assoc] at hrest
  rw [hall ds hne hds s none k hrest, hinner]

-- ================================================================= wildcards

theorem readsAsOne_thing (hr : r.Standard) : r.ReadsAsOne c ['+'] (.thing []) := by
  intro s result ending k hending hrest
  have hnext : r.next s = ⟨['+'], { s with rest := ending ++ k }⟩ :=
    next_before_ending hr (List.cons_ne_nil _ _) hending
      (passes_cons_inert (by decide +kernel) (by decide) (passes_nil .all _))
      (by intro d hd; rw [List.mem_singleton.1 hd]; decide +kernel) hrest
  have hwildcard : r.wildcard c.valueType = .thing [] := by
    unfold wildcard
    rw [hr.defaults]
    split
    · next heq => cases heq
    · rfl
  rw [readOneValue_wildcard (by rw [hnext]; rfl)]
  simp only [hnext, hwildcard, combine_eq hr]
  rw [hending.next hr.config.labels_eq (hending.stopsAt k).trimFront]

-- ================================================================== literals

/-- A `<` begins no delimiter if it is not part of `<q>` or `</q>`. -/
theorem firstDelimiter?_less {d e : Char} (hslash : sameFold '/' d = false)
    (hgreater : sameFold '>' e = false) (t : Text) :
    firstDelimiter? StopSet.all.anywhere ('<' :: d :: e :: t) = none := by
  have hless : sameFold '[' '<' = false ∧ sameFold ']' '<' = false ∧ sameFold ':' '<' = false ∧
      sameFold '|' '<' = false := by
    decide +kernel
  obtain ⟨h₁, h₂, h₃, h₄⟩ := hless
  simp [firstDelimiter?, anywhere, marks, bars, matchFront?, hslash, hgreater, h₁, h₂, h₃, h₄]

/-- A name behind a comparator is not cut either. -/
theorem passes_literal (comparator : Comparator) {t ending : Text} (ht : IsName t)
    (hending : IsEnding ending) (k : Text) :
    StopSet.all.Passes (ending ++ k) (comparator.symbol ++ t) := by
  have hname : StopSet.all.Passes (ending ++ k) t := passes_spaced ht.spaced
  have hinert {d : Char} {w : Text} (hd : isInert d = true ∧ isBlank d = false)
      (hw : StopSet.all.Passes (ending ++ k) w) : StopSet.all.Passes (ending ++ k) (d :: w) :=
    passes_cons_inert hd.1 hd.2 hw
  cases comparator with
  | equal => exact hname
  | notEqual => exact hinert (by decide +kernel) hname
  | greater => exact hinert (by decide +kernel) (hinert (by decide +kernel) hname)
  | lessEqual => exact hinert (by decide +kernel) hname
  | greaterEqual => exact hinert (by decide +kernel) hname
  | like => exact hinert (by decide +kernel) hname
  | notLike => exact hinert (by decide +kernel) (hinert (by decide +kernel) hname)
  | less =>
    -- the marks `<q>` and `</q>` are the only ones that could begin here
    obtain ⟨c, u, rfl, hupper⟩ := ht.head_isUpper
    have hfirst : isNameChar c = true := ht.spaced.head_isNameChar c rfl
    have hc : sameFold '/' c = false ∧ sameFold '>' c = false :=
      ⟨sameFold_of_isNameChar hfirst (by decide), sameFold_of_isNameChar hfirst (by decide)⟩
    have hsecond : ∃ e rest, u ++ (ending ++ k) = e :: rest ∧ sameFold '>' e = false := by
      cases u with
      | nil => cases hending <;> exact ⟨_, _, rfl, by decide +kernel⟩
      | cons e u =>
        refine ⟨e, _, rfl, ?_⟩
        rcases ht.spaced.isNameChar_or_eq_space e
          (List.mem_cons_of_mem c List.mem_cons_self) with he | rfl
        · exact sameFold_of_isNameChar he (by decide)
        · decide +kernel
    obtain ⟨e, rest, heq, he⟩ := hsecond
    refine ⟨?_, ?_, hname⟩
    · exact firstDelimiter?_less (by decide +kernel) hc.2 _
    · show firstDelimiter? StopSet.all.anywhere ('<' :: c :: (u ++ (ending ++ k))) = none
      rw [heq]
      exact firstDelimiter?_less hc.1 he rest

/-- The characters that the marks of comparators begin with. -/
def comparatorSigns : List Char := ['!', '<', '>', '≤', '≥', '~']

/-- Where every comparator is allowed, a mark applies just if the text begins with a
sign. -/
theorem exists_applies_iff {strict : Bool} {allowed : List Comparator}
    (hallowed : ∀ comparator, comparator ∈ allowed) {t : Text} :
    (∃ mark comparator, Comparator.Applies strict allowed t mark comparator) ↔
      ∃ c ∈ t.head?, c ∈ comparatorSigns := by
  constructor
  · rintro ⟨mark, comparator, happlies⟩
    have hall : ∀ entry ∈ Comparator.marks strict,
        entry.1.head?.any (comparatorSigns.contains ·) = true := by
      cases strict <;> decide
    obtain ⟨c, hc, hsign⟩ := (Option.any_eq_true _ _).1
      (hall _ (Comparator.mem_marks_iff.2 happlies.spells))
    obtain ⟨rest, rfl⟩ := happlies.isPrefix
    exact ⟨c, by rw [List.head?_append, hc]; rfl, List.contains_iff_mem.1 hsign⟩
  · rintro ⟨c, hc, hsign⟩
    obtain ⟨rest, rfl⟩ := List.head?_eq_some_iff.1 hc
    have hall : comparatorSigns.all (fun c => (Comparator.marks strict).any (·.1 == [c])) =
        true := by
      cases strict <;> decide
    obtain ⟨entry, hentry, hself⟩ := List.any_eq_true.1 (List.all_eq_true.1 hall c hsign)
    exact ⟨entry.1, entry.2, Comparator.mem_marks_iff.1 hentry, hallowed entry.2, rest, by
      rw [eq_of_beq hself]; rfl⟩

/-- A comparator is read back from in front of a text. There must be no other mark
in front of the text if the comparator has none itself, and `!` must not become
`!~`. -/
theorem split_symbol_append (strict : Bool) {allowed : List Comparator}
    (hallowed : ∀ comparator, comparator ∈ allowed) (comparator : Comparator) {t : Text}
    (hequal : comparator = .equal → ∀ c ∈ t.head?, c ∉ comparatorSigns)
    (hnotEqual : comparator = .notEqual → t.head? ≠ some '~') :
    Comparator.split strict allowed (comparator.symbol ++ t) = (comparator, t) := by
  refine (Comparator.split_symbol_append_iff (hallowed comparator)).2 ⟨?_, ?_⟩
  · rintro ⟨rfl, happlies⟩
    obtain ⟨c, hc, hsign⟩ := (exists_applies_iff hallowed).1 happlies
    exact hequal rfl c hc hsign
  · rintro ⟨rfl, -, rest, rfl⟩
    exact hnotEqual rfl rfl

/-- No mark begins with a character of a name. -/
theorem split_symbol (strict : Bool) {allowed : List Comparator}
    (hallowed : ∀ comparator, comparator ∈ allowed) (comparator : Comparator) {t : Text}
    (ht : IsName t) :
    Comparator.split strict allowed (comparator.symbol ++ t) = (comparator, t) := by
  have hhead : ∀ c ∈ t.head?, c ∉ comparatorSigns :=
    fun c hc => not_mem_of_isNameChar (ht.spaced.head_isNameChar c hc) (by decide)
  refine split_symbol_append strict hallowed comparator (fun _ => hhead) fun _ htilde => ?_
  exact hhead '~' htilde (by decide)

/-- A text is read as a literal of a property if it names an item of its
type, with any comparator in front of it. -/
theorem readsAsOne_literal (hr : r.Standard) (comparator : Comparator) {t : Text} {item : Item}
    (ht : IsName t) (hitem : item? r.config c.valueType t = some item) :
    r.ReadsAsOne c (comparator.symbol ++ t) (.value item (some c.last) comparator []) := by
  have hchecked : (comparator.symbol.all fun d => !sameFold ':' d && !isBlank d) = true := by
    cases comparator <;> decide +kernel
  have hsymbol : ∀ d ∈ comparator.symbol, sameFold ':' d = false ∧ isBlank d = false :=
    fun d hd => by simpa using List.all_eq_true.1 hchecked d hd
  have hne : comparator.symbol ++ t ≠ [] := List.append_ne_nil_of_right_ne_nil _ ht.spaced.ne_nil
  have hcolon : ∀ d ∈ comparator.symbol ++ t, sameFold ':' d = false := by
    intro d hd
    rcases List.mem_append.1 hd with hd | hd
    · exact (hsymbol d hd).1
    · exact ht.spaced.sameFold_colon d hd
  have htrim : Text.trim (comparator.symbol ++ t) = comparator.symbol ++ t := by
    refine Text.trim_eq_self (fun d hd => ?_) fun d hd => ?_
    · cases hcase : comparator.symbol with
      | nil =>
        rw [hcase] at hd
        exact isBlank_of_isNameChar (ht.spaced.head_isNameChar d hd)
      | cons e w =>
        rw [hcase] at hd hsymbol
        cases hd
        exact (hsymbol _ List.mem_cons_self).2
    · have hlast := Text.mem_getLast?_of_append ht.spaced.ne_nil hd
      exact isBlank_of_isNameChar (ht.spaced.last_isNameChar d hlast)
  have htoken : Token.ofChunk (comparator.symbol ++ t) = .text ∨
      Token.ofChunk (comparator.symbol ++ t) = .orWord := by
    cases comparator with
    | equal => exact ofChunk_name ht
    | less => exact .inl (by simp [Token.ofChunk, Comparator.symbol])
    | _ => exact Token.ofChunk_word _ (by decide) (by decide)
  have hvalue : value r.config c.last c.valueType (comparator.symbol ++ t) =
      (.value item (some c.last) comparator [], none) := by
    unfold value
    rw [htrim]
    simp only [split_symbol _ hr.config.comparators comparator ht, ht.spaced.trim_eq_self, hitem]
  intro s result ending k hending hrest
  have hnext : r.next s = ⟨comparator.symbol ++ t, { s with rest := ending ++ k }⟩ := by
    rw [next_before_ending hr hne hending (passes_literal comparator ht hending k) hcolon hrest,
      htrim]
  have hbehind : readValue r.config.labels (comparator.symbol ++ t) (ending ++ k) =
      ⟨comparator.symbol ++ t, ending, k⟩ := by
    have hbrackets : bracketsAfter 1 ending = 0 := by
      cases hending <;> rfl
    rw [readValue, readValueFrom, hending.cut_atomContent]
    simp only [Cut.trimmed, hending.trim_eq_self, hbrackets, if_true]
  rw [readOneValue_literal (by rw [hnext]; exact htoken), hnext, addLiteral, hbehind]
  simp only [hvalue, reportAny, combine_eq hr]

theorem readsAsOne_page (hr : r.Standard) (comparator : Comparator) {title : Text}
    (htitle : IsName title) (htype : c.valueType = .page) :
    r.ReadsAsOne c (comparator.symbol ++ title)
      (.value (.page (Page.main title)) (some c.last) comparator []) := by
  refine readsAsOne_literal hr comparator htitle ?_
  rw [htype, item?, page?_title hr htitle (.inl htitle.spaced.trim_eq_self)]
  rfl

theorem readsAsOne_text (hr : r.Standard) (comparator : Comparator) {t : Text} (ht : IsName t)
    (htype : c.valueType = .text) :
    r.ReadsAsOne c (comparator.symbol ++ t) (.value (.text t) (some c.last) comparator []) := by
  refine readsAsOne_literal hr comparator ht ?_
  rw [htype, item?, if_neg]
  rw [List.isEmpty_iff]
  exact ht.spaced.ne_nil

end Reader

end InlineQuery
