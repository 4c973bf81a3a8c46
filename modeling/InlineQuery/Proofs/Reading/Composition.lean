/-
Queries are put together from queries.

Where two queries are read without a report, so is each of them in `<q>` and
`</q>`, the two of them in a row, and the two of them with `||` in between. What
is read is what combining their conditions yields (`read_composition`).

# Why this is so

A query is read the same way in front of a delimiter as it is alone, up to its
end (`Consists`), since nothing in it depends on what stands behind. In front of
`</q>` its alternatives are then joined, and in front of `||` those of the other
query follow. The reader joins all of them from left to right, whereas the
conditions of the two queries are joined first and then combined. That this is
the same is the associativity of disjunctions.
-/
import InlineQuery.Proofs.Reading.Independence

namespace InlineQuery

namespace Reader

open State

variable {r : Reader}

-- ======================================================= joined alternatives

theorem every_merge {a b : Option Description} (ha : Every Description.WellFormed a)
    (hb : Every Description.WellFormed b) :
    Every Description.WellFormed (a.merge (Mode.merge .disjunctive) b) :=
  Every.merge (fun _ _ => Mode.wellFormed_merge_disjunctive) ha hb

theorem every_foldl_merge {a : Option Description} {ds : List (Option Description)}
    (ha : Every Description.WellFormed a) (hds : ∀ d ∈ ds, Every Description.WellFormed d) :
    Every Description.WellFormed (ds.foldl (Option.merge (Mode.merge .disjunctive)) a) := by
  induction ds generalizing a with
  | nil => exact ha
  | cons d ds ih =>
    exact ih (every_merge ha (hds d List.mem_cons_self))
      fun e he => hds e (List.mem_cons_of_mem d he)

/-- Alternatives that follow others are joined among themselves first. -/
theorem foldl_merge_eq {a : Option Description} {ds : List (Option Description)}
    (ha : Every Description.WellFormed a) (hds : ∀ d ∈ ds, Every Description.WellFormed d) :
    ds.foldl (Option.merge (Mode.merge .disjunctive)) a =
      a.merge (Mode.merge .disjunctive) (joined ds) := by
  induction ds generalizing a with
  | nil => cases a <;> rfl
  | cons d ds ih =>
    have hd := hds d List.mem_cons_self
    have hrest : ∀ e ∈ ds, Every Description.WellFormed e :=
      fun e he => hds e (List.mem_cons_of_mem d he)
    have hjoined : joined (d :: ds) = d.merge (Mode.merge .disjunctive) (joined ds) := by
      have hnone : (none : Option Description).merge (Mode.merge .disjunctive) d = d := by
        cases d <;> rfl
      rw [joined, List.foldl_cons, hnone, ih hd hrest]
    rw [List.foldl_cons, ih (every_merge ha hd) hrest, hjoined]
    exact Mode.merge_assoc_option .disjunctive ha hd (every_foldl_merge every_none hrest)

theorem joined_append {ds es : List (Option Description)}
    (hds : ∀ d ∈ ds, Every Description.WellFormed d)
    (hes : ∀ e ∈ es, Every Description.WellFormed e) :
    joined (ds ++ es) = (joined ds).merge (Mode.merge .disjunctive) (joined es) := by
  rw [joined, List.foldl_append]
  exact foldl_merge_eq (every_foldl_merge every_none hds) hes

theorem Progress.Complete.behind {p front : Progress} (hfront : front.Complete)
    (h : p.Complete) : (p.behind front.finished).Complete := by
  obtain ⟨hne, hsome⟩ := Bool.or_eq_false_iff.1 hfront
  refine Bool.or_eq_false_iff.2 ⟨?_, ?_⟩
  · show (front.finished ++ p.finished).isEmpty = false
    cases hfinished : front.finished with
    | nil =>
      rw [hfinished] at hne
      cases hne
    | cons d ds => rfl
  · show (front.finished ++ p.finished).any Option.isNone = false
    rw [List.any_append, hsome, (Bool.or_eq_false_iff.1 h).2]
    rfl

-- ============================================================ whole queries

theorem Permissive.read (hr : r.Permissive) (q : Text) :
    r.read q = ⟨(r.readSubquery false (.start q)).val.result.getD (.thing []),
      (r.readSubquery false (.start q)).val.state⟩ := by
  unfold Reader.read
  dsimp only
  split
  · rfl
  · rw [hr.combine, hr.defaults]
    cases (r.readSubquery false (.start q)).val.result <;> rfl

/-- At the end of a query, its alternatives are concluded. -/
theorem Permissive.readAlternatives_finish (hr : r.Permissive) (mark : Nat) (restrict : Bool)
    (p : Progress) {b : Text} {diagnostics : List Diagnostic}
    (hnil : (r.next ⟨b, [], diagnostics⟩).text = []) :
    (r.readAlternatives mark restrict p ⟨b, [], diagnostics⟩).val =
      r.conclude mark p.ended ⟨[], [], diagnostics⟩ := by
  have hstate : (r.next ⟨b, [], diagnostics⟩).state = ⟨[], [], diagnostics⟩ :=
    congrArg (State.mk · [] diagnostics) (rest_next_of_nil hnil).2
  rw [Reader.readAlternatives_finish (Token.ofChunk_eq_finish_iff.2 hnil), hr.finishAlternative,
    hstate]
  rfl

theorem Unrestricted.readAlternatives_end (hr : r.Unrestricted) (mark : Nat) (p : Progress)
    {b : Text} (hblank : Text.isBlankText b = true) (diagnostics : List Diagnostic) :
    (r.readAlternatives mark false p ⟨b, [], diagnostics⟩).val =
      r.conclude mark p.ended ⟨[], [], diagnostics⟩ :=
  hr.toPermissive.readAlternatives_finish mark false p
    (text_next_end hr.labels (Text.trimFront_eq_nil_iff.2 hblank))

/-- The query consists of these alternatives, in front of any delimiter. -/
structure Consists (r : Reader) (q : Text) (p : Progress) : Prop where
  leads : ∃ b, Text.isBlankText b = true ∧ r.Leads false (.start false) q p b
  complete : p.ended.Complete

/-- A query without diagnostics consists of alternatives, and what it means is
their disjunction. -/
theorem exists_consists (hr : r.Unrestricted) {q : Text}
    (hquiet : (r.read q).state.diagnostics = []) :
    ∃ p, r.Consists q p ∧ joined p.ended.finished = some (r.read q).description := by
  rw [hr.read] at hquiet ⊢
  by_cases hnil : (r.next (.start q)).text = []
  · -- nothing was read, and that is reported
    exfalso
    rw [readSubquery_nil hnil, leaveAtEnd_of_nil rfl] at hquiet
    exact nomatch conclude_quiet (s := (r.next (.start q)).state) rfl hquiet
  · rw [readSubquery_ne_nil hnil] at hquiet ⊢
    obtain ⟨p, b, hleads, hends⟩ :=
      (contextInvariant_preserved hr).alternatives 0 false (.start false) (.start q) hquiet
    have hhere : (r.readAlternatives (State.start q).diagnostics.length false (.start false)
        (.start q)).val = (r.readAlternatives 0 false p ⟨b, [], []⟩).val :=
      hleads.reads_here [] [] [] 0
    rw [hhere] at hquiet ⊢
    rcases hends with hfinish | hclose
    · have hblank : Text.isBlankText b = true :=
        (rest_next_of_nil (r := r) (s := ⟨b, [], []⟩) (Token.ofChunk_eq_finish_iff.1 hfinish)).1
      rw [hr.readAlternatives_end 0 p hblank] at hquiet ⊢
      have hcomplete := conclude_quiet (s := ⟨[], [], []⟩) rfl hquiet
      obtain ⟨d, hd⟩ := Option.isSome_iff_exists.1 hcomplete.isSome
      refine ⟨p, ⟨⟨b, hblank, hleads⟩, hcomplete⟩, ?_⟩
      rw [hr.conclude 0 hcomplete, hd]
      rfl
    · -- there is nothing that could be closed
      exfalso
      rw [readAlternatives_closeQuery (s := ⟨b, [], []⟩) hclose, leaveSubquery,
        hr.finishAlternative] at hquiet
      cases hquiet

-- ================================================================ in a row

/-- The query as a subquery. -/
def grouped (q : Text) : Text := ['<', 'q', '>'] ++ q ++ ['<', '/', 'q', '>']

namespace Consists

variable {q : Text} {p : Progress}

theorem wellFormed (h : r.Consists q p) :
    ∀ d ∈ p.ended.finished, Every Description.WellFormed d := by
  obtain ⟨b, -, hleads⟩ := h.leads
  have hall := hleads.wellFormed (all_start false)
  exact every_append hall.finished hall.current

/-- In front of `</q>`, a query is a subquery. -/
theorem readSubquery (hr : r.Unrestricted) (h : r.Consists q p) (k : Text) (blocks : List Block)
    (diagnostics : List Diagnostic) :
    (r.readSubquery false
      ⟨q ++ (['<', '/', 'q', '>'] ++ k), .subquery :: blocks, diagnostics⟩).val =
      ⟨joined p.ended.finished, false, ⟨k, blocks, diagnostics⟩⟩ := by
  obtain ⟨b, hblank, hleads⟩ := h.leads
  have hne : (r.next ⟨q ++ (['<', '/', 'q', '>'] ++ k), .subquery :: blocks, diagnostics⟩).text ≠
      [] := by
    intro hnil
    have hall := (rest_next_of_nil hnil).1
    rw [Text.isBlankText, List.all_append, List.all_append, Bool.and_eq_true,
      Bool.and_eq_true] at hall
    exact absurd hall.2.1 (by decide)
  have hreads := hleads.reads ⟨['<', '/', 'q', '>'] ++ k, .subquery :: blocks, diagnostics⟩ []
    diagnostics.length (fun _ => .inr ⟨rfl, rfl⟩)
  have hclosing : Text.trimFront (b ++ (['<', '/', 'q', '>'] ++ k)) =
      ['<', '/', 'q', '>'] ++ k := by
    rw [Text.trimFront, List.dropWhile_append_of_pos (List.all_eq_true.1 hblank)]
    rfl
  have hnext : r.next ⟨b ++ (['<', '/', 'q', '>'] ++ k), .subquery :: blocks, diagnostics⟩ =
      ⟨['<', '/', 'q', '>'], ⟨k, .subquery :: blocks, diagnostics⟩⟩ :=
    next_mark (by decide) hclosing
  rw [readSubquery_ne_nil hne]
  refine hreads.trans ?_
  rw [Progress.behind_nil, Context.put, hr.readAlternatives_closing (by rw [hnext]; rfl) rfl,
    hnext, hr.conclude _ h.complete]
  exact congrArg (Outcome.mk _ · _) hleads.restrict_eq

/-- A subquery joins the alternative under way. -/
theorem readAlternatives_grouped (hr : r.Unrestricted) (h : r.Consists q p) (mark : Nat)
    (front : Progress) (k : Text) (blocks : List Block) (diagnostics : List Diagnostic) :
    (r.readAlternatives mark false front ⟨grouped q ++ k, blocks, diagnostics⟩).val =
      (r.readAlternatives mark false
        { front with
          current := front.current.merge (Mode.merge .conjunctive) (joined p.ended.finished) }
        ⟨k, blocks, diagnostics⟩).val := by
  have hnext : r.next ⟨grouped q ++ k, blocks, diagnostics⟩ =
      ⟨['<', 'q', '>'], ⟨q ++ (['<', '/', 'q', '>'] ++ k), blocks, diagnostics⟩⟩ := by
    refine next_mark (by decide) ?_
    rw [grouped, List.append_assoc, List.append_assoc]
    rfl
  rw [readAlternatives_openQuery (by rw [hnext]; rfl), hnext, State.enter]
  dsimp only
  rw [h.readSubquery hr, hr.addCondition, Bool.or_false]

/-- The alternatives of a query behind those of another one. -/
theorem readAlternatives_or (hr : r.Unrestricted) (h : r.Consists q p) (mark : Nat) (k : Text) :
    (r.readAlternatives mark false (.start false) ⟨q ++ (['|', '|'] ++ k), [], []⟩).val =
      (r.readAlternatives mark false ((Progress.start false).behind p.ended.finished)
        ⟨k, [], []⟩).val := by
  obtain ⟨b, hblank, hleads⟩ := h.leads
  have hreads := hleads.reads ⟨['|', '|'] ++ k, [], []⟩ [] mark (fun _ => .inr ⟨rfl, rfl⟩)
  have hnext : r.next ⟨b ++ (['|', '|'] ++ k), [], []⟩ = ⟨['|', '|'], ⟨k, [], []⟩⟩ := by
    refine next_bars hr.labels ?_
    rw [Text.trimFront, List.dropWhile_append_of_pos (List.all_eq_true.1 hblank)]
    rfl
  have hended : p.ended = (Progress.start false).behind p.ended.finished := by
    have hrestrict : p.restrict = false := hleads.restrict_eq
    rw [Progress.ended, hrestrict]
    simp only [Progress.behind, Progress.start, List.append_nil]
  refine hreads.trans ?_
  rw [Progress.behind_nil, Context.put, Reader.readAlternatives_or (.inl (by rw [hnext]; rfl)),
    hnext, hr.finishAlternative, ← hended]

end Consists

/-- A whole query is what its alternatives are concluded to. -/
theorem read_of_conclude (hr : r.Unrestricted) {q : Text} {p : Progress}
    (hne : (r.next (.start q)).text ≠ [])
    (h : (r.readAlternatives 0 false (.start false) (.start q)).val =
      r.conclude 0 p ⟨[], [], []⟩) (hcomplete : p.Complete) {d : Description}
    (hd : joined p.finished = some d) : r.read q = ⟨d, ⟨[], [], []⟩⟩ := by
  have hwhole : (r.readSubquery false (.start q)).val = ⟨some d, p.restrict, ⟨[], [], []⟩⟩ := by
    rw [readSubquery_ne_nil hne, ← hd, ← hr.conclude 0 hcomplete]
    exact h
  rw [hr.read, hwhole]
  rfl

theorem text_next_ne_nil_of_mem {q : Text} {c : Char} (hc : c ∈ q) (hblank : isBlank c = false) :
    (r.next (.start q)).text ≠ [] := by
  intro hnil
  have hall := List.all_eq_true.1 (rest_next_of_nil hnil).1 c hc
  rw [hblank] at hall
  cases hall

section composition

variable {q₁ q₂ : Text} {p₁ p₂ : Progress} {t₁ t₂ : Description}

theorem read_grouped (hr : r.Unrestricted) (h : r.Consists q₁ p₁)
    (ht : joined p₁.ended.finished = some t₁) : r.read (grouped q₁) = ⟨t₁, ⟨[], [], []⟩⟩ := by
  have hfirst := h.readAlternatives_grouped hr 0 (.start false) [] [] []
  rw [List.append_nil] at hfirst
  have hend := hfirst.trans (hr.readAlternatives_end 0 _ rfl [])
  rw [ht] at hend
  exact read_of_conclude hr (text_next_ne_nil_of_mem List.mem_cons_self (by decide)) hend rfl rfl

theorem read_row (hr : r.Unrestricted) (h₁ : r.Consists q₁ p₁) (h₂ : r.Consists q₂ p₂)
    (ht₁ : joined p₁.ended.finished = some t₁) (ht₂ : joined p₂.ended.finished = some t₂) :
    r.read (grouped q₁ ++ grouped q₂) = ⟨Mode.conjunctive.merge t₁ t₂, ⟨[], [], []⟩⟩ := by
  have hfirst := h₁.readAlternatives_grouped hr 0 (.start false) (grouped q₂) [] []
  rw [ht₁] at hfirst
  have hsecond := h₂.readAlternatives_grouped hr 0 ⟨some t₁, [], false, false⟩ [] [] []
  rw [List.append_nil, ht₂] at hsecond
  have hend := hfirst.trans (hsecond.trans (hr.readAlternatives_end 0 _ rfl []))
  exact read_of_conclude hr (text_next_ne_nil_of_mem List.mem_cons_self (by decide)) hend rfl rfl

theorem read_alternatives (hr : r.Unrestricted) (h₁ : r.Consists q₁ p₁) (h₂ : r.Consists q₂ p₂)
    (ht₁ : joined p₁.ended.finished = some t₁) (ht₂ : joined p₂.ended.finished = some t₂) :
    r.read (q₁ ++ ['|', '|'] ++ q₂) = ⟨Mode.disjunctive.merge t₁ t₂, ⟨[], [], []⟩⟩ := by
  have hne : (r.next (.start (q₁ ++ ['|', '|'] ++ q₂))).text ≠ [] := by
    have hbar : '|' ∈ q₁ ++ ['|', '|'] ++ q₂ := by simp
    exact text_next_ne_nil_of_mem hbar (by decide)
  obtain ⟨b, hblank, hleads⟩ := h₂.leads
  have hfirst := h₁.readAlternatives_or hr 0 q₂
  have hsecond := hleads.reads_here p₁.ended.finished [] [] 0
  have hend := hfirst.trans (hsecond.trans (hr.readAlternatives_end 0 _ hblank []))
  rw [← List.append_assoc, Progress.ended_behind] at hend
  refine read_of_conclude hr hne hend (h₁.complete.behind h₂.complete) ?_
  show joined (p₁.ended.finished ++ p₂.ended.finished) = _
  rw [joined_append h₁.wellFormed h₂.wellFormed, ht₁, ht₂]
  rfl

end composition

/-- **Queries compose.** On a wiki with the usual names for its classes that
permits everything and restricts nothing, take two queries without diagnostics.
In `<q>` and `</q>`, a query means what it means alone; two such subqueries in a
row mean the conjunction of the two queries, and the queries with `||` between
them mean their disjunction, each as `combine` puts them together. Nothing is
reported of any of these. -/
theorem read_composition (config : Config) (hcategory : config.categoryLabel = categoryName)
    (hconcept : config.conceptLabel = conceptName) (hdefaults : config.defaultNamespaces = none)
    (hall : ∀ feature, config.features.has feature = true) (q₁ q₂ : Text)
    (hquiet₁ : ((ofConfig config).read q₁).state.diagnostics = [])
    (hquiet₂ : ((ofConfig config).read q₂).state.diagnostics = []) :
    let r := ofConfig config
    let t₁ := (r.read q₁).description
    let t₂ := (r.read q₂).description
    let group := r.read (grouped q₁)
    let row := r.read (grouped q₁ ++ grouped q₂)
    let either := r.read (q₁ ++ ['|', '|'] ++ q₂)
    group.description = t₁ ∧
      InlineQuery.combine config.features .conjunctive (some t₁) (some t₂) =
        ⟨some row.description, none⟩ ∧
      InlineQuery.combine config.features .disjunctive (some t₁) (some t₂) =
        ⟨some either.description, none⟩ ∧
      group.state.diagnostics = [] ∧ row.state.diagnostics = [] ∧
      either.state.diagnostics = [] := by
  intro r t₁ t₂ group row either
  have hr : r.Unrestricted := unrestricted_ofConfig hcategory hconcept hdefaults hall
  obtain ⟨p₁, h₁, ht₁⟩ := exists_consists hr hquiet₁
  obtain ⟨p₂, h₂, ht₂⟩ := exists_consists hr hquiet₂
  have hgroup : group = ⟨t₁, ⟨[], [], []⟩⟩ := read_grouped hr h₁ ht₁
  have hrow : row = ⟨Mode.conjunctive.merge t₁ t₂, ⟨[], [], []⟩⟩ := read_row hr h₁ h₂ ht₁ ht₂
  have heither : either = ⟨Mode.disjunctive.merge t₁ t₂, ⟨[], [], []⟩⟩ :=
    read_alternatives hr h₁ h₂ ht₁ ht₂
  rw [combine_eq_merge hall, combine_eq_merge hall, hgroup, hrow, heither]
  exact ⟨rfl, rfl, rfl, rfl, rfl, rfl⟩

/-- A category list that is the last alternative of a query, with a word behind
it, and another query that is such a list: in a row the two stay apart, as
alternatives they become one list. -/
theorem read_composition_categories :
    let r := ofConfig {}
    let q₁ := "[[In::+]] || [[Category:A]] +".toList
    let q₂ := "[[Category:B]]".toList
    let list (names : List String) : Description :=
      .categories (names.map fun name => Page.category name.toList) true []
    let inside := Description.someProperty ⟨"In".toList, false⟩ (.thing []) []
    let t₁ := Description.disjunction [inside, list ["A"]] (some 1) false []
    let t₂ := list ["B"]
    let group := r.read (grouped q₁)
    let row := r.read (grouped q₁ ++ grouped q₂)
    let either := r.read (q₁ ++ ['|', '|'] ++ q₂)
    ((r.read q₁).description = t₁ ∧ (r.read q₁).state.diagnostics = []) ∧
      ((r.read q₂).description = t₂ ∧ (r.read q₂).state.diagnostics = []) ∧
      group.description = t₁ ∧
      row.description = .conjunction [t₁, t₂] [] ∧
      either.description = .disjunction [inside, list ["A", "B"]] (some 1) false [] ∧
      group.state.diagnostics = [] ∧ row.state.diagnostics = [] ∧
      either.state.diagnostics = [] := by
  intro r q₁ q₂ list inside t₁ t₂ group row either
  have hchain : chain {} "In".toList =
      .ok ⟨[], ⟨"In".toList, false⟩, .page⟩ := rfl
  have hread₁ : (r.read q₁).description = t₁ ∧ (r.read q₁).state.diagnostics = [] := by
    unfold read
    rw [readSubquery_ne_nil (by decide +kernel), readAlternatives_openAtom (by decide +kernel),
      readAtom_property (by decide +kernel) (by decide +kernel) (by decide +kernel)
        (by decide +kernel),
      readProperty_ok hchain,
      readValues_last (by rw [readOneValue_wildcard (by decide +kernel)]; decide +kernel),
      readOneValue_wildcard (by decide +kernel), readAlternatives_or (by decide +kernel),
      readAlternatives_openAtom (by decide +kernel),
      readAtom_class (by decide +kernel : _ = some .category),
      readAlternatives_wildcard (by decide +kernel),
      readAlternatives_finish (by decide +kernel)]
    decide +kernel
  have hread₂ : (r.read q₂).description = t₂ ∧ (r.read q₂).state.diagnostics = [] := by
    unfold read
    rw [readSubquery_ne_nil (by decide +kernel), readAlternatives_openAtom (by decide +kernel),
      readAtom_class (by decide +kernel : _ = some .category),
      readAlternatives_finish (by decide +kernel)]
    decide +kernel
  obtain ⟨hgroup, hrow, heither, hquiet⟩ :=
    read_composition {} rfl rfl rfl FeatureSet.has_all q₁ q₂ hread₁.2 hread₂.2
  rw [hread₁.1, hread₂.1] at hrow heither
  have hrow' : some (Description.conjunction [t₁, t₂] []) = some row.description :=
    congrArg Combined.result hrow
  have heither' : some (Description.disjunction [inside, list ["A", "B"]] (some 1) false []) =
      some either.description := congrArg Combined.result heither
  exact ⟨hread₁, hread₂, hgroup.trans hread₁.1, (Option.some.inj hrow').symm,
    (Option.some.inj heither').symm, hquiet⟩

end Reader

end InlineQuery
