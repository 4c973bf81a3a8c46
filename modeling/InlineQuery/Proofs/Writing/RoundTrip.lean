/-
Canonical trees are read back from what is written of them.

The induction is over the tree. A condition is written in three positions,
and in each of them it is read back by a different reader; `Reads` says so
for all three at once, because each position leads to the others: a chain
ends in a value, a value may be a subquery, and a subquery is a row of atoms
with chains in them.
-/
import InlineQuery.Proofs.Writing.Alternatives
import InlineQuery.Query

namespace InlineQuery

namespace Description

/-- The conditions that are written one by one between atoms: the children
of a conjunction, or the condition itself. -/
def conjuncts : Description → List Description
  | .conjunction children _ => children
  | d => [d]

theorem writeAll_eq_map (ds : List Description) : writeAll ds = ds.map (writeAt .alone) := by
  induction ds with
  | nil => rfl
  | cons d ds ih => rw [writeAll, ih]; rfl

theorem writeValues_eq_map (ds : List Description) : writeValues ds = ds.map (writeAt .value) := by
  induction ds with
  | nil => rfl
  | cons d ds ih => rw [writeValues, ih]; rfl

/-- A condition as one of the alternatives between atoms. -/
def writeGroup (d : Description) : Text :=
  if d.isSomeProperty then " <q>".toList ++ writeAt .alone d ++ "</q> ".toList
  else writeAt .alone d

theorem writeGroups_eq_map (ds : List Description) : writeGroups ds = ds.map writeGroup := by
  induction ds with
  | nil => rfl
  | cons d ds ih => rw [writeGroups, ih]; rfl

/-- Behind the name of a property, a condition that does not prolong the
chain is written as a value. -/
theorem writeAt_chain {d : Description}
    (h : ∀ property inner ps, d = .someProperty property inner ps →
      isDotted property.write = true) :
    writeAt .chain d = [':', ':'] ++ writeAt .value d := by
  cases d with
  | someProperty property inner ps =>
    have hdotted := h property inner ps rfl
    simp only [writeAt, if_pos hdotted]
    rfl
  | conjunction children ps =>
    simp only [writeAt]
    split <;> rfl
  | disjunction children categoryIndex always ps =>
    simp only [writeAt]
    split <;> rfl
  | _ =>
    simp only [writeAt]
    rfl

/-- A condition without a value form is written in `<q>` and `</q>`. -/
theorem writeAt_value_nested {d : Description} (hnested : d.isNested = true)
    (hne : writeAt .alone d ≠ []) :
    Reader.IsBracketed (writeAt .value d) (writeAt .alone d) := by
  cases d with
  | thing => cases hnested
  | value => cases hnested
  | disjunction => cases hnested
  | someProperty property inner ps =>
    simp only [writeAt]
    exact Reader.isBracketed_bare _
  | conjunction children ps =>
    simp only [writeAt] at hne ⊢
    split
    · next hempty =>
      rw [if_pos hempty] at hne
      exact absurd rfl hne
    · exact Reader.isBracketed_blanks _
  | _ =>
    simp only [writeAt]
    exact Reader.isBracketed_blanks _

end Description

open Description

namespace Reader

variable {r : Reader}

theorem ReadsAsRow.ne_nil {text : Text} {ds : List Description} (h : r.ReadsAsRow text ds) :
    text ≠ [] := by
  rintro rfl
  exact absurd (h.opens []) (by decide)

-- ================================================== what is read of one tree

/-- In every position that the condition can be written in, it is read back:
as a row of atoms, as a value of a property, and behind the names of a
chain. -/
structure Reads (r : Reader) (d : Description) : Prop where
  row : Canonical r.config d → r.ReadsAsRow (writeAt .alone d) d.conjuncts
  one : ∀ c : Chain, c.valueType = r.config.valueType c.last →
    CanonicalValue r.config c.last d → d.isDisjunction = false →
    r.ReadsAsOne c (writeAt .value d) d
  values : ∀ c : Chain, c.valueType = r.config.valueType c.last →
    CanonicalValue r.config c.last d → r.ReadsAsValues c (writeAt .value d) d
  chain : ∀ (outer : List Property) (last : Property),
    (∀ p ∈ outer, IsLink p ∧ r.config.valueType p = .page) → IsLink last →
    CanonicalValue r.config last d →
    r.ReadsAsAtom (chainNames outer last ++ writeAt .chain d)
      ((outer ++ [last]).foldr (fun property inner => .someProperty property inner []) d)

/-- The conditions that a condition consists of. -/
def parts : Description → List Description
  | .someProperty _ inner _ => [inner]
  | d => d.children

theorem combineEach_conjuncts (hr : r.Standard) {d : Description} (h : Canonical r.config d) :
    combineEach r.config.features .conjunctive none d.conjuncts = some d := by
  cases h with
  | conjunction hlength hchildren hflat =>
    exact combineEach_conjunction hr.config.features hlength fun c hc =>
      ⟨(hchildren c hc).isThing_eq_false, hflat c hc, (hchildren c hc).prints_eq_nil⟩
  | _ => exact combine_none hr.config.features _ _

theorem Reads.alternative (hr : r.Standard) {d : Description} (h : r.Reads d)
    (hcanonical : Canonical r.config d) : r.ReadsAsAlternative (writeAt .alone d) d :=
  ⟨d.conjuncts, h.row hcanonical, combineEach_conjuncts hr hcanonical⟩

/-- A condition that is grouped as an alternative is read as the same
condition. -/
theorem Reads.group (hr : r.Standard) {d : Description} (h : r.Reads d)
    (hcanonical : Canonical r.config d) : r.ReadsAsAlternative (writeGroup d) d := by
  unfold writeGroup
  split
  · refine ⟨[d], ?_, combine_none hr.config.features _ d⟩
    exact readsAsRow_bracketed hr (isBracketed_blanks _)
      (readsAsSubquery_of_alternative hr (h.alternative hr hcanonical))
  · exact h.alternative hr hcanonical

-- ===================================================================== rows

theorem writeCategories_eq {titles : List Text} (hne : titles ≠ []) :
    writeCategories (titles.map Page.category) =
      ['[', '['] ++ (categoryName ++ ':' :: Text.join ['|', '|'] titles) ++ [']', ']'] := by
  cases titles with
  | nil => exact absurd rfl hne
  | cons title titles =>
    have htitles : (titles.map Page.category).map Page.title = titles := by
      rw [List.map_map]
      exact List.map_id titles
    have hjoin : Text.join "||".toList
        ((Page.category title).fullTitle :: (titles.map Page.category).map Page.title) =
        categoryName ++ ':' :: Text.join ['|', '|'] (title :: titles) := by
      rw [htitles]
      cases titles with
      | nil => rfl
      | cons next titles =>
        show (categoryName ++ ':' :: title) ++ ['|', '|'] ++ _ = _
        rw [Text.join, List.append_assoc, List.append_assoc, List.append_assoc]
        rfl
    show ['[', '['] ++ Text.join "||".toList
      ((Page.category title).fullTitle :: (titles.map Page.category).map Page.title) ++
        [']', ']'] = _
    rw [hjoin]

theorem writeNamespace_eq (id : NamespaceId) (label : Text) :
    writeNamespace id label = ['[', '['] ++ namespaceContent id label ++ [']', ']'] := by
  show ['[', '['] ++ (if id = NamespaceId.category then [':'] else []) ++ label ++
    ([':', '+'] ++ [']', ']']) = _
  rw [namespaceContent]
  simp only [List.append_assoc]

theorem conjuncts_eq_singleton {d : Description} (h : d.isConjunction = false) :
    d.conjuncts = [d] := by
  cases d with
  | conjunction => cases h
  | _ => rfl

theorem ne_nil_of_length {α : Type} {l : List α} (h : 2 ≤ l.length) : l ≠ [] := by
  rintro rfl
  simp at h

/-- The atom of a property condition is read once its inner condition is, in
whichever way the name leads to it. -/
theorem row_someProperty (hr : r.Standard) {property : Property} {inner : Description}
    (hlabel : IsLabel property.label) (hinner : CanonicalValue r.config property inner)
    (hreads : r.Reads inner) :
    r.ReadsAsRow (writeAt .alone (.someProperty property inner []))
      [.someProperty property inner []] := by
  by_cases hdotted : isDotted property.write = true
  · have hwrite : writeAt .alone (.someProperty property inner []) =
        ['[', '['] ++ ((' ' :: property.write) ++ [':', ':'] ++ writeAt .value inner) ++
          [']', ']'] := by
      simp only [writeAt, if_pos hdotted, List.append_assoc]
      rfl
    rw [hwrite]
    exact readsAsRow_atom hr (readsAsAtom_property hr (readsAsChain_dotted hr hlabel)
      (hreads.values ⟨[], property, r.config.valueType property⟩ rfl hinner))
  · have hwrite : writeAt .alone (.someProperty property inner []) =
        ['[', '['] ++ (chainNames [] property ++ writeAt .chain inner) ++ [']', ']'] := by
      simp only [writeAt, if_neg hdotted]
      rfl
    rw [hwrite]
    refine readsAsRow_atom hr (hreads.chain [] property (fun _ h => nomatch h) ?_ hinner)
    exact ⟨hlabel, Bool.eq_false_iff.2 hdotted⟩

theorem row_of_parts (hr : r.Standard) {d : Description} (hparts : ∀ x ∈ parts d, r.Reads x)
    (hcanonical : Canonical r.config d) : r.ReadsAsRow (writeAt .alone d) d.conjuncts := by
  cases hcanonical with
  | categories hne htitles =>
    have hrow := readsAsRow_atom hr (readsAsAtom_categories hr hne htitles)
    rw [← writeCategories_eq hne] at hrow
    exact hrow
  | concept htitle => exact readsAsRow_atom hr (readsAsAtom_concept hr htitle)
  | inNamespace hentry hconcept =>
    have hrow := readsAsRow_atom hr (readsAsAtom_inNamespace hr hentry hconcept)
    rw [← writeNamespace_eq] at hrow
    exact hrow
  | page htitle => exact readsAsRow_atom hr (readsAsAtom_page hr htitle)
  | someProperty hlabel hinner =>
    exact row_someProperty hr hlabel hinner (hparts _ List.mem_cons_self)
  | @conjunction children hlength hchildren hflat =>
    have hrows : ∀ child ∈ children, r.ReadsAsRow (writeAt .alone child) [child] := by
      intro child hchild
      have hrow := (hparts child hchild).row (hchildren child hchild)
      rwa [conjuncts_eq_singleton (hflat child hchild)] at hrow
    have hne := ne_nil_of_length hlength
    have hall : (writeAll children).filter (fun part => !part.isEmpty) =
        children.map (writeAt .alone) := by
      rw [writeAll_eq_map, List.filter_eq_self]
      intro part hpart
      obtain ⟨child, hchild, rfl⟩ := List.mem_map.1 hpart
      simpa using (hrows child hchild).ne_nil
    have hwrite : writeAt .alone (.conjunction children []) =
        Text.join [' '] (children.map (writeAt .alone)) := by
      simp only [writeAt, hall]
      rw [if_neg (by simpa using hne)]
      rfl
    rw [hwrite]
    exact readsAsRow_join hne hrows
  | @disjunction children hlength hchildren hflat hcategories =>
    have hwrite : writeAt .alone
        (.disjunction children (children.findIdx? isCategories) false []) =
        " <q>".toList ++ Text.join [' ', 'O', 'R', ' '] (children.map writeGroup) ++
          "</q> ".toList := by
      simp only [writeAt, Bool.false_eq_true, if_false, writeGroups_eq_map]
      rfl
    rw [hwrite]
    refine readsAsRow_bracketed hr (isBracketed_blanks _) ?_
    refine readsAsSubquery_join hr (ne_nil_of_length hlength)
      (fun child hchild => (hparts child hchild).group hr (hchildren child hchild)) ?_
    exact combineEach_disjunction hr.config.features hlength
      (fun c hc => ⟨(hchildren c hc).isThing_eq_false, hflat c hc, (hchildren c hc).prints_eq_nil⟩)
      hcategories

-- =================================================================== values

theorem one_of_row (hr : r.Standard) {d : Description}
    (hrow : Canonical r.config d → r.ReadsAsRow (writeAt .alone d) d.conjuncts) (c : Chain)
    (htype : c.valueType = r.config.valueType c.last)
    (hcanonical : CanonicalValue r.config c.last d) (hflat : d.isDisjunction = false) :
    r.ReadsAsOne c (writeAt .value d) d := by
  cases hcanonical with
  | thing => exact readsAsOne_thing hr
  | page hpage htitle => exact readsAsOne_page hr _ htitle (htype.trans hpage)
  | text htext ht => exact readsAsOne_text hr _ ht (htype.trans htext)
  | nested hpage hd hnested =>
    have hd' := hrow hd
    refine readsAsOne_bracketed hr (htype.trans hpage) (writeAt_value_nested hnested hd'.ne_nil) ?_
    exact readsAsSubquery_of_alternative hr ⟨d.conjuncts, hd', combineEach_conjuncts hr hd⟩
  | disjunction => cases hflat

theorem values_of_one (hr : r.Standard) {d : Description} (hparts : ∀ x ∈ parts d, r.Reads x)
    (c : Chain) (htype : c.valueType = r.config.valueType c.last)
    (hone : d.isDisjunction = false → r.ReadsAsOne c (writeAt .value d) d)
    (hcanonical : CanonicalValue r.config c.last d) : r.ReadsAsValues c (writeAt .value d) d := by
  by_cases hflat : d.isDisjunction = false
  · exact readsAsValues_of_one hr (hone hflat)
  · cases hcanonical with
    | @disjunction _ children hlength hchildren hchildrenFlat hthing hcategories =>
      have hwrite : writeAt .value
          (.disjunction children (children.findIdx? isCategories) false []) =
          Text.join ['|', '|'] (children.map (writeAt .value)) := by
        simp only [writeAt, Bool.false_eq_true, if_false, writeValues_eq_map]
        rfl
      rw [hwrite]
      refine readsAsValues_join (ne_nil_of_length hlength)
        (fun child hchild =>
          (hparts child hchild).one c htype (hchildren child hchild)
            (hchildrenFlat child hchild)) ?_
      exact combineEach_disjunction hr.config.features hlength
        (fun c hc => ⟨hthing c hc, hchildrenFlat c hc, (hchildren c hc).prints_eq_nil⟩) hcategories
    | nested _ _ hnested =>
      cases d with
      | disjunction => cases hnested
      | _ => exact absurd rfl hflat
    | _ => exact absurd rfl hflat

-- =================================================================== chains

theorem chain_of_values (hr : r.Standard) {d : Description} (hparts : ∀ x ∈ parts d, r.Reads x)
    {outer : List Property} {last : Property}
    (houter : ∀ p ∈ outer, IsLink p ∧ r.config.valueType p = .page) (hlast : IsLink last)
    (hvalues : r.ReadsAsValues ⟨outer, last, r.config.valueType last⟩ (writeAt .value d) d)
    (hcanonical : CanonicalValue r.config last d) :
    r.ReadsAsAtom (chainNames outer last ++ writeAt .chain d)
      ((outer ++ [last]).foldr (fun property inner => .someProperty property inner []) d) := by
  by_cases hlink : ∃ property inner ps, d = .someProperty property inner ps ∧
      isDotted property.write = false
  · -- the chain goes on with the name of a further property
    obtain ⟨property, inner, ps, rfl, hdotted⟩ := hlink
    cases hcanonical with
    | nested hpage hd _ =>
      cases hd with
      | someProperty hlabel hinner =>
        have hwrite : chainNames outer last ++
            writeAt .chain (.someProperty property inner []) =
            chainNames (outer ++ [last]) property ++ writeAt .chain inner := by
          simp only [writeAt, hdotted, Bool.false_eq_true, if_false, chainNames,
            List.flatMap_append, List.flatMap_cons, List.flatMap_nil, List.append_assoc,
            List.append_nil]
          rfl
        rw [hwrite]
        have hlinks : ∀ p ∈ outer ++ [last], IsLink p ∧ r.config.valueType p = .page :=
          List.forall_mem_append.2 ⟨houter, List.forall_mem_singleton.2 ⟨hlast, hpage⟩⟩
        have := (hparts inner List.mem_cons_self).chain (outer ++ [last]) property hlinks
          ⟨hlabel, hdotted⟩ hinner
        rwa [List.foldr_append] at this
  · have hwrite : writeAt .chain d = [':', ':'] ++ writeAt .value d := by
      refine writeAt_chain fun property inner ps heq => ?_
      by_cases hdotted : isDotted property.write = true
      · exact hdotted
      · exact absurd ⟨property, inner, ps, heq, Bool.eq_false_iff.2 hdotted⟩ hlink
    rw [hwrite, ← List.append_assoc]
    exact readsAsAtom_property hr (readsAsChain_chainNames hr houter hlast) hvalues

theorem reads_of_parts (hr : r.Standard) {d : Description} (hparts : ∀ x ∈ parts d, r.Reads x) :
    r.Reads d := by
  have hrow := row_of_parts hr hparts
  have hvalues (c : Chain) (htype : c.valueType = r.config.valueType c.last)
      (hcanonical : CanonicalValue r.config c.last d) :=
    values_of_one hr hparts c htype (one_of_row hr hrow c htype hcanonical) hcanonical
  exact ⟨hrow, one_of_row hr hrow, hvalues, fun outer last houter hlast hcanonical =>
    chain_of_values hr hparts houter hlast (hvalues ⟨outer, last, _⟩ rfl hcanonical) hcanonical⟩

theorem reads (hr : r.Standard) (d : Description) : r.Reads d := by
  induction d using Description.induct with
  | someProperty property inner ps ih =>
    exact reads_of_parts hr (List.forall_mem_singleton.2 ih)
  | conjunction children ps ih => exact reads_of_parts hr ih
  | disjunction children categoryIndex always ps ih => exact reads_of_parts hr ih
  | _ => exact reads_of_parts hr fun _ h => nomatch h

-- ================================================================== queries

/-- A whole query that is one row is read as the condition of that row,
without a diagnostic. -/
theorem readSubquery_start (hr : r.Standard) {text : Text} {d : Description}
    (h : r.ReadsAsAlternative text d) :
    ∃ s, s.diagnostics = [] ∧
      (r.readSubquery false (.start text)).val = ⟨some d, false, s⟩ := by
  obtain ⟨ds, hrow, hds⟩ := h
  obtain ⟨rest, restricted, hend, heq⟩ := hrow.reads 0 false (.start false) (.start text) []
    (by rw [List.append_nil]; rfl)
  have hnil := text_next_end (r := r) (s := { State.start text with rest := rest })
    hr.config.labels_eq hend
  rw [readSubquery_eq hr]
  show ∃ s, s.diagnostics = [] ∧
    (r.readAlternatives 0 false (.start false) (.start text)).val = ⟨some d, false, s⟩
  rw [heq, readAlternatives_finish (Token.ofChunk_eq_finish_iff.2 hnil), finishAlternative_eq hr]
  refine ⟨(r.next { State.start text with rest := rest }).state, rfl, ?_⟩
  show r.conclude 0 ⟨none, [combineEach r.config.features .conjunctive none ds], false, false⟩ _ = _
  rw [hds]
  have := conclude_eq hr 0 false false (List.cons_ne_nil d [])
    (r.next { State.start text with rest := rest }).state
  rw [combineEach, List.foldl_cons, combine_none hr.config.features] at this
  exact this

/-- Reading takes back writing: on a wiki with standard settings, whatever
the types of its properties, a canonical tree is read from what is written
of it, and nothing in it is reported. -/
theorem read_write {config : Config} (hconfig : config.Standard) {d : Description}
    (hd : Canonical config d) : Query.read (ofConfig config) d.write = ⟨d, [], []⟩ := by
  have hdefaults : (ofConfig config).defaults = none := by
    rw [ofConfig, hconfig.defaultNamespaces]
    rfl
  have hr : (ofConfig config).Standard := ⟨hconfig, hdefaults⟩
  obtain ⟨s, hs, heq⟩ := readSubquery_start hr ((reads hr d).alternative hr hd)
  rw [write, Query.read, read]
  simp only [heq, hdefaults, combine_eq hr, Bool.false_eq_true, if_false,
    combine_none hr.config.features, Option.getD_some, hs]

/-- Alternatives of every shape: a list of categories next to a chain, and a
property whose name has a dot. -/
theorem read_write_alternatives :
    let config : Config := { propertyTypes := [("Ver.no".toList, .text)] }
    let partOf : Property := ⟨"Part of".toList, true⟩
    let version : Property := ⟨"Ver.no".toList, false⟩
    let row : Description := .conjunction
      [ .categories [Page.category "City".toList, Page.category "Town".toList] true [],
        .someProperty ⟨"In".toList, false⟩ (.someProperty partOf
          (.value (.page (Page.main "Asia".toList)) (some partOf) .less []) []) [] ] []
    let draft : Description :=
      .someProperty version (.value (.text "Draft".toList) (some version) .like []) []
    let d : Description := .disjunction [row, draft] none false []
    (config.Standard ∧ Canonical config d) ∧
      Query.read (ofConfig config) d.write = ⟨d, [], []⟩ := by
  intro config partOf version row draft d
  have hconfig : config.Standard :=
    ⟨rfl, rfl, rfl, rfl, (by intro feature; cases feature <;> rfl),
      (by intro comparator; cases comparator <;> decide), rfl⟩
  have hspaced : Spaced "Part of".toList :=
    .more (w := "Part".toList) (by decide) (List.all_eq_true.1 (by decide)) (.of_all (by decide))
  have hin : IsLabel "In".toList := ⟨⟨.of_all (by decide), 'I', rfl, rfl⟩, rfl, rfl⟩
  have hpart : IsLabel "Part of".toList := ⟨⟨hspaced, 'P', rfl, rfl⟩, rfl, rfl⟩
  have hversion : IsLabel "Ver.no".toList := ⟨⟨.of_all (by decide), 'V', rfl, rfl⟩, rfl, rfl⟩
  have hrow : Canonical config row := by
    have htitles : ∀ t ∈ ["City".toList, "Town".toList], IsName t :=
      List.forall_mem_cons.2 ⟨⟨.of_all (by decide), 'C', rfl, rfl⟩,
        List.forall_mem_singleton.2 ⟨.of_all (by decide), 'T', rfl, rfl⟩⟩
    have hpage : IsName "Asia".toList := ⟨.of_all (by decide), 'A', rfl, rfl⟩
    exact .conjunction (by decide)
      (List.forall_mem_cons.2 ⟨.categories (by decide) htitles,
        List.forall_mem_singleton.2
          (.someProperty hin (.nested rfl (.someProperty hpart (.page rfl hpage)) rfl))⟩)
      (by decide)
  have hdraft : Canonical config draft :=
    .someProperty hversion (.text rfl ⟨.of_all (by decide), 'D', rfl, rfl⟩)
  have hd : Canonical config d :=
    .disjunction (by decide)
      (List.forall_mem_cons.2 ⟨hrow, List.forall_mem_singleton.2 hdraft⟩) (by decide) (by decide)
  exact ⟨⟨hconfig, hd⟩, read_write hconfig hd⟩

end Reader

end InlineQuery
