/-
Reading the names of properties.

A property condition begins with one name, or with a chain of names that are
set off by dots. A name that has a dot of its own stands behind a space and
is never part of a chain. What is written in either way is read back as the
same chain of properties (`ReadsAsChain`), and an atom is read as a property
condition once its values are read (`readsAsAtom_property`).
-/
import InlineQuery.Proofs.Titles.PropertyNames
import InlineQuery.Proofs.Writing.Atoms

namespace InlineQuery

open Description

-- ==================================================================== names

namespace Property

open StopSet

variable {p : Property}

theorem write_ne_nil (h : IsName p.label) : p.write ≠ [] := by
  unfold write
  split
  · exact List.cons_ne_nil _ _
  · exact h.spaced.ne_nil

theorem write_head (h : IsName p.label) : ∀ c ∈ p.write.head?, isNameChar c = true ∨ c = '-' := by
  unfold write
  split
  · rintro c ⟨⟩
    exact .inr rfl
  · exact fun c hc => .inl (h.spaced.head_isNameChar c hc)

theorem write_last (h : IsName p.label) : ∀ c ∈ p.write.getLast?, isNameChar c = true := by
  unfold write
  split
  · rw [List.getLast?_cons_of_ne_nil h.spaced.ne_nil]
    exact h.spaced.last_isNameChar
  · exact h.spaced.last_isNameChar

theorem write_sameFold_colon (h : IsName p.label) : ∀ c ∈ p.write, sameFold ':' c = false := by
  unfold write
  split
  · intro c hc
    rcases List.mem_cons.1 hc with rfl | hc
    · decide +kernel
    · exact h.spaced.sameFold_colon c hc
  · exact h.spaced.sameFold_colon

theorem passes_write (h : IsName p.label) (k : Text) : StopSet.all.Passes k p.write := by
  unfold write
  split
  · exact passes_cons_inert (by decide +kernel) (by decide) (passes_spaced h.spaced)
  · exact passes_spaced h.spaced

theorem trim_write (h : IsName p.label) : Text.trim p.write = p.write :=
  trim_write_of_isTitle (isTitle_of_normalizeTitle? h.normalizeTitle?_eq_self)

theorem read?_write (h : IsName p.label) : Property.read? true p.write = some p := by
  refine (read?_write_eq_self_iff h.normalizeTitle?_eq_self).2 fun _ hminus => ?_
  exact absurd (h.spaced.head_isNameChar '-' hminus) (by decide)

end Property

/-- Only ASCII characters fold to those of the names of classes. -/
theorem toNat_lt_of_foldCode {c : Char}
    (h : foldCode c ∈ categoryName.map foldCode ++ conceptName.map foldCode) : c.toNat < 128 := by
  have hcodes : ∀ code ∈ categoryName.map foldCode ++ conceptName.map foldCode,
      (0 < code ∧ code < 128) ∧ ∀ run ∈ foldRuns, run.last < 128 ∨
        (code : Int) < run.first + run.offset ∨ run.last + run.offset < (code : Int) := by
    decide +kernel
  obtain ⟨hsmall, hruns⟩ := hcodes _ h
  rcases CaseRun.mapCode_cases foldRuns c.toNat with hself | ⟨run, hrun, hcovers, himage⟩
  · rw [foldCode, hself] at hsmall
    exact hsmall.2
  · obtain ⟨hfirst, hlast, -⟩ := CaseRun.covers_iff.1 hcovers
    have hcode : foldCode c = ((c.toNat : Int) + run.offset).toNat := himage
    have hrun := hruns run hrun
    omega

/-- A text that is not the name of a class in any case does not fold to it. -/
theorem map_foldCode_ne {name t : Text} (hname : name ∈ [categoryName, conceptName])
    (h : Text.eqIgnoreAsciiCase t name = false) : name.map foldCode ≠ t.map foldCode := by
  intro heq
  have hascii {u : Text} (hu : ∀ c ∈ u, c.toNat < 128) :
      u.map foldCode = (u.map Char.toLower).map Char.toNat := by
    rw [List.map_map]
    exact List.map_congr_left fun c hc => foldCode_ascii (hu c hc)
  have hcodes : ∀ code ∈ name.map foldCode,
      code ∈ categoryName.map foldCode ++ conceptName.map foldCode := by
    intro code hcode
    rw [List.mem_append]
    rcases List.mem_cons.1 hname with rfl | hname
    · exact .inl hcode
    · exact .inr (List.mem_singleton.1 hname ▸ hcode)
  have hname : ∀ c ∈ name, c.toNat < 128 :=
    fun c hc => toNat_lt_of_foldCode (hcodes _ (List.mem_map_of_mem hc))
  have ht : ∀ c ∈ t, c.toNat < 128 :=
    fun c hc => toNat_lt_of_foldCode (hcodes _ (heq ▸ List.mem_map_of_mem hc))
  rw [hascii hname, hascii ht] at heq
  have hlower := (List.map_inj_right fun _ _ => Char.toNat_inj.1).1 heq
  rw [Text.eqIgnoreAsciiCase, hlower, beq_self_eq_true] at h
  cases h

/-- Neither does a text with a dot or a minus sign in it. -/
theorem map_foldCode_ne_of_mem {c : Char} {t : Text} (hc : c = '.' ∨ c = '-') (hmem : c ∈ t) :
    categoryName.map foldCode ≠ t.map foldCode ∧ conceptName.map foldCode ≠ t.map foldCode := by
  have hfold : foldCode c ∉ categoryName.map foldCode ∧
      foldCode c ∉ conceptName.map foldCode := by
    rcases hc with rfl | rfl <;> decide +kernel
  have hcode := List.mem_map_of_mem (f := foldCode) hmem
  exact ⟨fun heq => hfold.1 (heq ▸ hcode), fun heq => hfold.2 (heq ▸ hcode)⟩

/-- No label folds to the name of a class, since none is that name. -/
theorem IsLabel.map_foldCode_ne {label : Text} (h : IsLabel label) :
    categoryName.map foldCode ≠ label.map foldCode ∧
      conceptName.map foldCode ≠ label.map foldCode :=
  ⟨InlineQuery.map_foldCode_ne (by decide) h.notCategory,
    InlineQuery.map_foldCode_ne (by decide) h.notConcept⟩

-- =================================================================== chains

/-- The names of a chain, with dots between them. -/
def chainNames (outer : List Property) (last : Property) : Text :=
  outer.flatMap (fun property => property.write ++ ['.']) ++ last.write

theorem chainNames_cons (property : Property) (outer : List Property) (last : Property) :
    chainNames (property :: outer) last = property.write ++ '.' :: chainNames outer last := by
  simp [chainNames]

/-- A property that can have a place in a chain. -/
structure IsLink (property : Property) : Prop where
  label : IsLabel property.label
  notDotted : isDotted property.write = false

theorem IsLink.dot_not_mem {property : Property} (h : IsLink property) :
    '.' ∉ property.write := by
  have := h.notDotted
  simpa [isDotted] using this

section chainNames

open StopSet

variable {outer : List Property} {last : Property}

theorem chainNames_ne_nil (hlast : IsLink last) : chainNames outer last ≠ [] :=
  List.append_ne_nil_of_right_ne_nil _ (Property.write_ne_nil hlast.label.toIsName)

theorem chainNames_head (houter : ∀ p ∈ outer, IsLink p) (hlast : IsLink last) :
    ∀ c ∈ (chainNames outer last).head?, isNameChar c = true ∨ c = '-' := by
  cases outer with
  | nil => exact Property.write_head hlast.label.toIsName
  | cons p outer =>
    have hp := (houter p List.mem_cons_self).label.toIsName
    rw [chainNames_cons]
    cases hwrite : p.write with
    | nil => exact absurd hwrite (Property.write_ne_nil hp)
    | cons d w =>
      rintro c ⟨⟩
      exact Property.write_head hp d (by rw [hwrite]; rfl)

theorem chainNames_last (hlast : IsLink last) :
    ∀ c ∈ (chainNames outer last).getLast?, isNameChar c = true := by
  intro c hc
  have hname := hlast.label.toIsName
  exact Property.write_last hname c
    (Text.mem_getLast?_of_append (Property.write_ne_nil hname) hc)

theorem passes_chainNames (houter : ∀ p ∈ outer, IsLink p) (hlast : IsLink last) (k : Text) :
    StopSet.all.Passes k (chainNames outer last) := by
  induction outer with
  | nil => exact Property.passes_write hlast.label.toIsName k
  | cons p outer ih =>
    rw [chainNames_cons]
    refine passes_append
      (Property.passes_write (houter p List.mem_cons_self).label.toIsName _) ?_
    exact passes_cons_inert (by decide +kernel) (by decide)
      (ih fun q hq => houter q (List.mem_cons_of_mem p hq))

theorem chainNames_sameFold_colon (houter : ∀ p ∈ outer, IsLink p) (hlast : IsLink last) :
    ∀ c ∈ chainNames outer last, sameFold ':' c = false := by
  induction outer with
  | nil => exact Property.write_sameFold_colon hlast.label.toIsName
  | cons p outer ih =>
    intro c hc
    rw [chainNames_cons] at hc
    rcases List.mem_append.1 hc with hc | hc
    · exact Property.write_sameFold_colon (houter p List.mem_cons_self).label.toIsName c hc
    · rcases List.mem_cons.1 hc with rfl | hc
      · decide +kernel
      · exact ih (fun q hq => houter q (List.mem_cons_of_mem p hq)) c hc

/-- A chain is not the name of a class either: those have neither a dot nor
a minus sign. -/
theorem chainNames_map_foldCode_ne (houter : ∀ p ∈ outer, IsLink p) (hlast : IsLink last) :
    categoryName.map foldCode ≠ (chainNames outer last).map foldCode ∧
      conceptName.map foldCode ≠ (chainNames outer last).map foldCode := by
  cases outer with
  | nil =>
    by_cases hinverse : last.inverse = true
    · refine map_foldCode_ne_of_mem (.inr rfl) ?_
      show '-' ∈ last.write
      rw [Property.write, if_pos hinverse]
      exact List.mem_cons_self
    · show categoryName.map foldCode ≠ last.write.map foldCode ∧
        conceptName.map foldCode ≠ last.write.map foldCode
      rw [Property.write, if_neg hinverse]
      exact hlast.label.map_foldCode_ne
  | cons p outer =>
    refine map_foldCode_ne_of_mem (.inl rfl) ?_
    rw [chainNames_cons]
    exact List.mem_append_right _ List.mem_cons_self

theorem splitAll_chainNames (houter : ∀ p ∈ outer, IsLink p) (hlast : IsLink last) :
    Text.splitAll '.' (chainNames outer last) = outer.map Property.write ++ [last.write] := by
  induction outer with
  | nil => exact Text.splitAll_of_not_mem hlast.dot_not_mem
  | cons p outer ih =>
    rw [chainNames_cons, Text.splitAll_append (houter p List.mem_cons_self).dot_not_mem,
      ih fun q hq => houter q (List.mem_cons_of_mem p hq)]
    rfl

end chainNames

namespace Reader

open StopSet

variable {r : Reader}

/-- Names of properties of which all but the last have pages as their values
make a chain. -/
theorem chainFrom_ok {config : Config} (before : List Property) {outer : List Property}
    {last : Property} (houter : ∀ property ∈ outer, config.valueType property = .page)
    {name : Text} {names : List Text}
    (hread : (name :: names).map (Property.read? config.capitalLinks) =
      (outer ++ [last]).map some) :
    chainFrom config before name names = .ok ⟨before ++ outer, last, config.valueType last⟩ := by
  induction outer generalizing before name names with
  | nil =>
    obtain ⟨hname, hnames⟩ := List.cons.inj hread
    obtain rfl := List.map_eq_nil_iff.1 hnames
    rw [chainFrom, hname, List.append_nil]
  | cons property outer ih =>
    obtain ⟨htype, houter⟩ := List.forall_mem_cons.1 houter
    obtain ⟨hname, hnames⟩ := List.cons.inj hread
    cases names with
    | nil => simp at hnames
    | cons following names =>
      rw [chainFrom, hname]
      dsimp only
      rw [if_pos htype, ih (before ++ [property]) houter hnames, List.append_assoc]
      rfl

theorem chainFrom_write (hr : r.Standard) (before : List Property) {outer : List Property}
    {last : Property} (houter : ∀ p ∈ outer, IsLink p ∧ r.config.valueType p = .page)
    (hlast : IsLink last) {name : Text} {names : List Text}
    (hnames : outer.map Property.write ++ [last.write] = name :: names) :
    chainFrom r.config before name names =
      .ok ⟨before ++ outer, last, r.config.valueType last⟩ := by
  refine chainFrom_ok before (fun p hp => (houter p hp).2) ?_
  have hwrite : ∀ p ∈ outer, Property.read? true p.write = some p :=
    fun p hp => Property.read?_write (houter p hp).1.label.toIsName
  rw [← hnames, hr.config.capitalLinks, List.map_append, List.map_map, List.map_append,
    List.map_singleton, Property.read?_write hlast.label.toIsName]
  exact congrArg (· ++ [some last]) (List.map_congr_left hwrite)

/-- In front of `::`, the text is one chunk, and names the chain. -/
structure ReadsAsChain (r : Reader) (names : Text) (c : Chain) : Prop where
  ne_nil : names ≠ []
  passes : ∀ k, StopSet.all.Passes k names
  leading : ∀ k, firstDelimiter? (StopSet.all.leadingMarks canonicalLabels)
    (names ++ ([':', ':'] ++ k)) = none
  token : Token.ofChunk (Text.trim names) = .text ∨ Token.ofChunk (Text.trim names) = .orWord
  head : names.head? ≠ some ':'
  last : (Text.trim names).getLast? ≠ some ':'
  chain : Reader.chain r.config names = .ok c

/-- A name with dots stands behind a space, and is not split. -/
theorem readsAsChain_dotted (hr : r.Standard) {property : Property}
    (hlabel : IsLabel property.label) :
    r.ReadsAsChain (' ' :: property.write) ⟨[], property, r.config.valueType property⟩ := by
  have hname := hlabel.toIsName
  have htrim : Text.trim (' ' :: property.write) = property.write := by
    rw [Text.trim_space, Property.trim_write hname]
  have hread : Property.read? true (' ' :: property.write) = some property := by
    rw [← Property.read?_write hname, Property.read?, Property.read?, Text.trim_space]
  refine ⟨List.cons_ne_nil _ _, fun k => ?_, fun k => ?_, ?_, by simp, ?_, ?_⟩
  · exact passes_cons_blank Text.isBlank_space (Property.write_ne_nil hname)
      (Property.passes_write hname k)
  · exact leadingMarks_of_head (by rintro c ⟨⟩; decide +kernel) .all
  · rw [htrim]
    exact Token.ofChunk_of_head (Property.write_ne_nil hname) (Property.write_head hname)
  · rw [htrim]
    exact fun h => absurd (Property.write_last hname _ h) (by decide)
  · rw [Reader.chain]
    simp [chainFrom, hr.config.capitalLinks, hread]

theorem readsAsChain_chainNames (hr : r.Standard) {outer : List Property} {last : Property}
    (houter : ∀ p ∈ outer, IsLink p ∧ r.config.valueType p = .page) (hlast : IsLink last) :
    r.ReadsAsChain (chainNames outer last) ⟨outer, last, r.config.valueType last⟩ := by
  have hlinks : ∀ p ∈ outer, IsLink p := fun p hp => (houter p hp).1
  have hhead := chainNames_head hlinks hlast
  have hlastChar : ∀ c ∈ (chainNames outer last).getLast?, isNameChar c = true :=
    chainNames_last hlast
  have htrim : Text.trim (chainNames outer last) = chainNames outer last := by
    refine Text.trim_eq_self (fun c hc => ?_) fun c hc => isBlank_of_isNameChar (hlastChar c hc)
    rcases hhead c hc with hname | rfl
    · exact isBlank_of_isNameChar hname
    · decide
  have hnot {c : Char} (hc : isNameChar c = false ∧ c ≠ '-') :
      (chainNames outer last).head? ≠ some c := by
    intro h
    rcases hhead c h with hname | rfl
    · rw [hc.1] at hname
      cases hname
    · exact hc.2 rfl
  refine ⟨chainNames_ne_nil hlast, passes_chainNames hlinks hlast, fun k => ?_, ?_,
    hnot (by decide), ?_, ?_⟩
  · exact leadingMarks_of_piece (':' :: k) (chainNames_sameFold_colon hlinks hlast) (by decide)
      (fun _ => chainNames_map_foldCode_ne hlinks hlast) .all
  · rw [htrim]
    exact Token.ofChunk_of_head (chainNames_ne_nil hlast) hhead
  · rw [htrim]
    exact fun h => absurd (hlastChar _ h) (by decide)
  · rw [Reader.chain, if_neg (hnot (by decide)), splitAll_chainNames hlinks hlast]
    cases hnames : outer.map Property.write ++ [last.write] with
    | nil => simp at hnames
    | cons name names => exact chainFrom_write hr [] houter hlast hnames

-- ====================================================== property conditions

/-- In front of the end of an atom, the text is read as values that make the
condition. -/
def ReadsAsValues (r : Reader) (c : Chain) (text : Text) (inner : Description) : Prop :=
  ∀ (s : State) (k : Text), s.rest = text ++ [']', ']'] ++ k →
    (r.readValues c none s).val = ⟨some inner, ⟨[']', ']'], { s with rest := k }⟩⟩

/-- An atom that begins with a chain makes a condition on it. -/
theorem readAtom_chain (hlabels : r.config.labels = canonicalLabels) {names : Text} {c : Chain}
    (hnames : r.ReadsAsChain names c) {s : State} {k : Text}
    (hrest : s.rest = names ++ ([':', ':'] ++ k)) (restrict : Bool) :
    (r.readAtom restrict s).val =
      r.closeProperty s.diagnostics.length restrict c
        (r.readValues c none { s.enter .atom with rest := k }).val := by
  obtain ⟨hfirst, hopened⟩ := cut_first hnames.ne_nil (stopsAt_separator _)
    (hnames.passes _) (by rw [hlabels]; exact hnames.leading _) hrest
  have hnext : r.next (r.opened s) = ⟨[':', ':'], { s.enter .atom with rest := k }⟩ := by
    rw [hopened]
    exact next_mark (by decide) rfl
  have hempty : ¬ StartsEmpty (Text.trim (r.firstChunk s)) := by
    rw [hfirst, StartsEmpty]
    rcases hnames.token with h | h <;> rw [h] <;> decide
  rw [readAtom_property (by rw [hfirst]; exact classKind?_eq_none _ hnames.last) hempty
    (by rw [hnext]; rfl) (by rw [hfirst]; exact hnames.head), hfirst, hnext,
    readProperty_ok hnames.chain]

/-- A property condition is read as its chain and its values are. -/
theorem readsAsAtom_property (hr : r.Standard) {names values : Text} {c : Chain}
    {inner : Description} (hnames : r.ReadsAsChain names c)
    (hvalues : r.ReadsAsValues c values inner) :
    r.ReadsAsAtom (names ++ [':', ':'] ++ values) (c.describe inner) := by
  intro s k hrest
  refine ⟨false, ?_⟩
  have hsplit : s.rest = names ++ ([':', ':'] ++ (values ++ [']', ']'] ++ k)) := by
    rw [hrest]
    simp only [List.append_assoc]
  rw [readAtom_chain hr.config.labels_eq hnames hsplit, hvalues _ k rfl]
  exact finishAtom_closing hr false _ rfl

end Reader

end InlineQuery
