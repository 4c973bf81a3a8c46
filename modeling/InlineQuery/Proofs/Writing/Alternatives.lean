/-
Reading what stands between atoms.

A written query is a row of atoms and subqueries, or alternatives with `OR`
between them. Each piece of it is read with an arbitrary text behind it:
what the piece says joins the alternative under way, and nothing else about
the reader changes (`ReadsAsRow`). Rows are put together to longer rows and
to alternatives, and alternatives to subqueries.
-/
import InlineQuery.Proofs.Writing.Values

namespace InlineQuery

open Description

theorem combineEach_append (permitted : FeatureSet) (mode : Mode) (current : Option Description)
    (ds es : List Description) :
    combineEach permitted mode current (ds ++ es) =
      combineEach permitted mode (combineEach permitted mode current ds) es :=
  List.foldl_append

namespace Reader

open StopSet

variable {r : Reader}

-- ===================================================================== rows

/-- Between atoms, the text begins with a delimiter and adds the conditions
to the alternative under way, one after the other. -/
structure ReadsAsRow (r : Reader) (text : Text) (ds : List Description) : Prop where
  opens : ∀ k, (firstDelimiter? StopSet.all.anywhere (Text.trimFront (text ++ k))).isSome = true
  reads : ∀ (mark : Nat) (restrict : Bool) (p : Progress) (s : State) (k : Text),
    Text.trimFront s.rest = Text.trimFront (text ++ k) →
    ∃ rest restricted, Text.trimFront rest = Text.trimFront k ∧
      (r.readAlternatives mark restrict p s).val =
        (r.readAlternatives mark restrict
          { p with
            current := combineEach r.config.features .conjunctive p.current ds
            restricted := restricted }
          { s with rest := rest }).val

theorem addCondition_eq (hr : r.Standard) (p : Progress) (d : Description) (restricted : Bool)
    (s : State) :
    r.addCondition p ⟨some d, restricted, s⟩ =
      ({ p with
          current := combineEach r.config.features .conjunctive p.current [d]
          restricted := p.restricted || restricted },
        s) := by
  simp only [addCondition, combine_eq hr]
  rfl

theorem readsAsRow_atom (hr : r.Standard) {content : Text} {d : Description}
    (h : r.ReadsAsAtom content d) : r.ReadsAsRow (['[', '['] ++ content ++ [']', ']']) [d] where
  opens k := rfl
  reads mark restrict p s k hrest := by
    have hopen : Text.trimFront s.rest = ['[', '['] ++ (content ++ [']', ']'] ++ k) := by
      rw [hrest]
      simp only [List.append_assoc]
      rfl
    have hnext := next_mark (r := r) (by decide) hopen
    obtain ⟨restricted, hatom⟩ := h _ k (congrArg (fun c => c.state.rest) hnext)
    refine ⟨k, p.restricted || restricted, rfl, ?_⟩
    rw [readAlternatives_openAtom (by rw [hnext]; rfl), hatom, hnext, addCondition_eq hr]

/-- Two rows with a space between them are a longer row. -/
theorem readsAsRow_append {first second : Text} {ds es : List Description}
    (hfirst : r.ReadsAsRow first ds) (hsecond : r.ReadsAsRow second es) :
    r.ReadsAsRow (first ++ [' '] ++ second) (ds ++ es) where
  opens k := by
    rw [List.append_assoc, List.append_assoc]
    exact hfirst.opens _
  reads mark restrict p s k hrest := by
    rw [List.append_assoc, List.append_assoc] at hrest
    obtain ⟨rest, restricted, hmiddle, heq⟩ := hfirst.reads mark restrict p s _ hrest
    obtain ⟨rest', restricted', hend, heq'⟩ := hsecond.reads mark restrict
      { p with
        current := combineEach r.config.features .conjunctive p.current ds
        restricted := restricted }
      { s with rest := rest } k hmiddle
    refine ⟨rest', restricted', hend, ?_⟩
    rw [heq, heq', combineEach_append]

theorem readsAsRow_join {write : Description → Text} {ds : List Description} (hne : ds ≠ [])
    (hds : ∀ d ∈ ds, r.ReadsAsRow (write d) [d]) :
    r.ReadsAsRow (Text.join [' '] (ds.map write)) ds := by
  induction ds with
  | nil => exact absurd rfl hne
  | cons d ds ih =>
    cases ds with
    | nil => exact hds d List.mem_cons_self
    | cons e ds =>
      have hothers := ih (List.cons_ne_nil e ds) fun x hx => hds x (List.mem_cons_of_mem d hx)
      exact readsAsRow_append (hds d List.mem_cons_self) hothers

-- ============================================================== alternatives

/-- The row of one alternative, which makes the condition on its own. -/
def ReadsAsAlternative (r : Reader) (text : Text) (d : Description) : Prop :=
  ∃ ds, r.ReadsAsRow text ds ∧ combineEach r.config.features .conjunctive none ds = some d

theorem finishAlternative_eq (hr : r.Standard) (p : Progress) (s : State) :
    r.finishAlternative p s = (⟨none, p.finished ++ [p.current], false, p.restrict⟩, s) := by
  unfold finishAlternative
  rw [hr.defaults]

/-- What remains of a subquery in which only the end of an alternative and
`</q>` are left to read. -/
theorem readAlternatives_closing (hr : r.Standard) (mark : Nat) (restrict : Bool) (p : Progress)
    {s : State} {k : Text}
    (hrest : Text.trimFront s.rest = ['<', '/', 'q', '>'] ++ k) :
    (r.readAlternatives mark restrict p s).val =
      r.leaveSubquery mark restrict ['<', '/', 'q', '>']
        ⟨none, p.finished ++ [p.current], false, p.restrict⟩ { s with rest := k } := by
  have hnext := next_mark (r := r) (by decide) hrest
  rw [readAlternatives_closeQuery (by rw [hnext]; rfl), hnext, finishAlternative_eq hr]

/-- Alternatives with `OR` between them are finished one by one. -/
theorem readAlternatives_join (hr : r.Standard) {write : Description → Text}
    {ds : List Description} (hne : ds ≠ []) (hds : ∀ d ∈ ds, r.ReadsAsAlternative (write d) d)
    (mark : Nat) (restrict : Bool) (p : Progress) (hp : p.current = none) (s : State) (k : Text)
    (hrest : Text.trimFront s.rest =
      Text.trimFront (Text.join [' ', 'O', 'R', ' '] (ds.map write) ++
        (['<', '/', 'q', '>'] ++ k))) :
    (r.readAlternatives mark restrict p s).val =
      r.leaveSubquery mark restrict ['<', '/', 'q', '>']
        ⟨none, p.finished ++ ds.map some, false, p.restrict⟩ { s with rest := k } := by
  induction ds generalizing p s with
  | nil => exact absurd rfl hne
  | cons d ds ih =>
    obtain ⟨parts, hrow, hparts⟩ := hds d List.mem_cons_self
    cases ds with
    | nil =>
      obtain ⟨rest, restricted, hclosing, heq⟩ := hrow.reads mark restrict p s _ hrest
      rw [heq, readAlternatives_closing hr _ _ _ hclosing]
      simp only [hp, hparts]
      rfl
    | cons e ds =>
      have hothers : ∀ x ∈ e :: ds, r.ReadsAsAlternative (write x) x :=
        fun x hx => hds x (List.mem_cons_of_mem d hx)
      have hsplit : Text.trimFront s.rest = Text.trimFront (write d ++ ([' ', 'O', 'R', ' '] ++
          (Text.join [' ', 'O', 'R', ' '] ((e :: ds).map write) ++
            (['<', '/', 'q', '>'] ++ k)))) := by
        rw [hrest, List.map_cons, List.map_cons, Text.join]
        simp only [List.append_assoc]
      obtain ⟨rest, restricted, hor, heq⟩ := hrow.reads mark restrict p s _ hsplit
      have hopens : (firstDelimiter? StopSet.all.anywhere (Text.trimFront
          (Text.join [' ', 'O', 'R', ' '] ((e :: ds).map write) ++
            (['<', '/', 'q', '>'] ++ k)))).isSome = true := by
        obtain ⟨es, hnext, -⟩ := hothers e List.mem_cons_self
        cases ds with
        | nil => exact hnext.opens _
        | cons f ds =>
          rw [List.map_cons, List.map_cons, Text.join, List.append_assoc, List.append_assoc]
          exact hnext.opens _
      have hor : Text.trimFront rest = 'O' :: 'R' :: ' ' ::
          (Text.join [' ', 'O', 'R', ' '] ((e :: ds).map write) ++ (['<', '/', 'q', '>'] ++ k)) :=
        hor
      have hnext := next_or (r := r) (s := { s with rest := rest }) hr.config.labels_eq hor hopens
      rw [heq, readAlternatives_or (by rw [hnext]; exact .inr rfl), hnext,
        finishAlternative_eq hr]
      have := ih (List.cons_ne_nil e ds) hothers
        ⟨none, p.finished ++ [some d], false, p.restrict⟩ rfl
        { s with rest := Text.trimFront (Text.join [' ', 'O', 'R', ' '] ((e :: ds).map write) ++
          (['<', '/', 'q', '>'] ++ k)) }
        (Text.trimFront_trimFront _)
      simp only [hp, hparts]
      rw [this]
      simp

-- =============================================================== subqueries

/-- Behind `<q>` and in front of `</q>`, the text is read as the condition. -/
def ReadsAsSubquery (r : Reader) (text : Text) (d : Description) : Prop :=
  ∀ (restrict : Bool) (s : State) (blocks : List Block) (k : Text),
    s.rest = text ++ (['<', '/', 'q', '>'] ++ k) → s.blocks = .subquery :: blocks →
    ∃ restricted, (r.readSubquery restrict s).val =
      ⟨some d, restricted, { s with rest := k, blocks := blocks }⟩

/-- A subquery without anything in it comes to nothing either way. -/
theorem readSubquery_eq (hr : r.Standard) (restrict : Bool) (s : State) :
    (r.readSubquery restrict s).val =
      (r.readAlternatives s.diagnostics.length restrict (.start restrict) s).val := by
  by_cases h : (r.next s).text = []
  · rw [readSubquery_nil h, readAlternatives_finish (Token.ofChunk_eq_finish_iff.2 h),
      finishAlternative_eq hr]
    rfl
  · exact readSubquery_ne_nil h

theorem combineAll_eq (hr : r.Standard) (current : Option Description) (ds : List Description)
    (s : State) :
    r.combineAll current (ds.map some) s =
      ⟨combineEach r.config.features .disjunctive current ds, s⟩ := by
  induction ds generalizing current with
  | nil => rfl
  | cons d ds ih =>
    rw [List.map_cons, combineAll, combine_eq hr, ih]
    rfl

theorem conclude_eq (hr : r.Standard) (mark : Nat) (restricted restrict : Bool)
    {ds : List Description} (hne : ds ≠ []) (s : State) :
    r.conclude mark ⟨none, ds.map some, restricted, restrict⟩ s =
      ⟨combineEach r.config.features .disjunctive none ds, restrict, s⟩ := by
  have hkept : ((ds.map some).isEmpty || (ds.map some).any Option.isNone) = false := by
    rw [Bool.or_eq_false_iff]
    constructor
    · simpa using hne
    · simp
  unfold conclude
  simp only [hkept, Bool.false_eq_true, if_false, combineAll_eq hr]

theorem readsAsSubquery_join (hr : r.Standard) {write : Description → Text}
    {ds : List Description} {d : Description} (hne : ds ≠ [])
    (hds : ∀ x ∈ ds, r.ReadsAsAlternative (write x) x)
    (hd : combineEach r.config.features .disjunctive none ds = some d) :
    r.ReadsAsSubquery (Text.join [' ', 'O', 'R', ' '] (ds.map write)) d := by
  intro restrict s blocks k hrest hblocks
  refine ⟨restrict, ?_⟩
  rw [readSubquery_eq hr, readAlternatives_join hr hne hds _ restrict (.start restrict) rfl s k
    (by rw [hrest]), leaveSubquery, if_pos (by rw [hblocks]; rfl)]
  show r.conclude _ ⟨none, [] ++ ds.map some, false, restrict⟩ _ = _
  rw [List.nil_append, conclude_eq hr _ _ _ hne, hd]
  simp only [State.leave, hblocks, List.tail_cons]

theorem readsAsSubquery_of_alternative (hr : r.Standard) {text : Text} {d : Description}
    (h : r.ReadsAsAlternative text d) : r.ReadsAsSubquery text d := by
  have hone : ∀ x ∈ [d], r.ReadsAsAlternative ((fun _ => text) x) x :=
    List.forall_mem_singleton.2 h
  exact readsAsSubquery_join hr (List.cons_ne_nil d []) hone (combine_none hr.config.features _ d)

-- ============================================================ bracketed text

/-- The text in `<q>` and `</q>`, with blanks around it or without. -/
structure IsBracketed (whole text : Text) : Prop where
  before : ∃ after, (∀ k, Text.trimFront (after ++ k) = Text.trimFront k) ∧
    ∀ k, Text.trimFront (whole ++ k) =
      ['<', 'q', '>'] ++ (text ++ (['<', '/', 'q', '>'] ++ (after ++ k)))

theorem isBracketed_blanks (text : Text) :
    IsBracketed (" <q>".toList ++ text ++ "</q> ".toList) text := by
  refine ⟨[' '], fun k => ?_, fun k => ?_⟩
  · rfl
  · simp only [List.append_assoc]
    rfl

theorem isBracketed_bare (text : Text) :
    IsBracketed ("<q>".toList ++ text ++ "</q>".toList) text := by
  refine ⟨[], fun k => rfl, fun k => ?_⟩
  simp only [List.append_assoc]
  rfl

theorem readsAsRow_bracketed (hr : r.Standard) {whole text : Text} {d : Description}
    (hwhole : IsBracketed whole text) (h : r.ReadsAsSubquery text d) :
    r.ReadsAsRow whole [d] where
  opens k := by
    obtain ⟨after, -, hwhole⟩ := hwhole.before
    rw [hwhole]
    rfl
  reads mark restrict p s k hrest := by
    obtain ⟨after, hafter, hwhole⟩ := hwhole.before
    rw [hwhole] at hrest
    have hnext := next_mark (r := r) (by decide) hrest
    obtain ⟨restricted, hsub⟩ := h false
      (State.enter .subquery { s with rest := text ++ (['<', '/', 'q', '>'] ++ (after ++ k)) })
      s.blocks (after ++ k) rfl rfl
    refine ⟨after ++ k, p.restricted || restricted, hafter k, ?_⟩
    rw [readAlternatives_openQuery (by rw [hnext]; rfl), hnext, hsub, addCondition_eq hr]
    rfl

/-- A subquery is a value of a property whose values are pages. -/
theorem readsAsOne_bracketed (hr : r.Standard) {c : Chain} (htype : c.valueType = .page)
    {whole text : Text} {d : Description} (hwhole : IsBracketed whole text)
    (h : r.ReadsAsSubquery text d) : r.ReadsAsOne c whole d := by
  intro s result ending k hending hrest
  obtain ⟨after, hafter, hwhole⟩ := hwhole.before
  have hopen : Text.trimFront s.rest =
      ['<', 'q', '>'] ++ (text ++ (['<', '/', 'q', '>'] ++ (after ++ (ending ++ k)))) := by
    rw [hrest, hwhole]
  have hnext := next_mark (r := r) (by decide) hopen
  obtain ⟨restricted, hsub⟩ := h true
    (State.enter .subquery
      { s with rest := text ++ (['<', '/', 'q', '>'] ++ (after ++ (ending ++ k))) })
    s.blocks (after ++ (ending ++ k)) rfl rfl
  have hend : r.next { s with rest := after ++ (ending ++ k) } =
      ⟨ending, { s with rest := k }⟩ := by
    refine hending.next hr.config.labels_eq ?_
    rw [hafter, (hending.stopsAt k).trimFront]
  rw [readOneValue_openQuery (by rw [hnext]; rfl), hnext, hsub, addSubquery, if_pos htype]
  simp only [combine_eq hr]
  rw [← hend]
  rfl

end Reader

end InlineQuery
