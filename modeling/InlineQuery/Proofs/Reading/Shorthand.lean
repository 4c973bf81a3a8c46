/-
A chain of properties is short for subqueries.

`[[Located in.Capital of::Europe]]` means what
`[[Located in::<q>[[Capital of::Europe]]</q>]]` means, for any value that can
stand behind the last name (`read_chain_eq_read_nested`). The two are read in
quite different ways, the one by splitting a name at its dots, the other by a
reader inside of a reader.

# Why this is so

The values behind a chain are read by its last property alone
(`readValues_congr`), so they are read the same way behind every chain that ends
with it. What stands behind the atom is read the same way too. It could only add
to the condition, and then the query would not mean a condition on a property;
so the query means the condition of its one atom, whichever it is
(`read_replace_chain`). The subquery, in turn, means as a value what it means
alone (`read_nested`).

# Names

Which names a chain can have is a matter of their characters
(`IsChainName`). No delimiter begins with any of them, in no letter case, so the
names with dots between them are one chunk, and they are found again at the
dots (`readsAsChain_join`).
-/
import InlineQuery.Proofs.Reading.Rows
import InlineQuery.Proofs.Titles.Normalization
import InlineQuery.Proofs.Writing.Properties

namespace InlineQuery

open Description

-- ======================================================= names within a chain

/-- The characters of titles, without those that mean something in front of
`::`. Letters and digits are such characters, and so is the minus sign. -/
def isChainChar (c : Char) : Bool := isTitleChar c && !(['.', ':', '+'].contains c)

/-- A name in a chain as it may be written, with a minus sign in front of it if
the property is inverse: neither of its ends is a space, and it is not the name
of a class. -/
structure IsChainName (t : Text) : Prop where
  allowed : ∀ c ∈ t, isChainChar c = true ∨ c = ' '
  head : ∃ c ∈ t.head?, isChainChar c = true
  last : ∃ c ∈ t.getLast?, isChainChar c = true
  notMinus : t ≠ ['-']
  notCategory : Text.eqIgnoreAsciiCase t categoryName = false
  notConcept : Text.eqIgnoreAsciiCase t conceptName = false

theorem isTitleChar_of_isChainChar {c : Char} (h : isChainChar c = true) : isTitleChar c = true :=
  (Bool.and_eq_true_iff.1 h).1

theorem isInert_of_isChainChar {c : Char} (h : isChainChar c = true) : isInert c = true := by
  have hmarks : ['[', ']', ':', '<', '|'].all (fun d => isCaseless d && !isChainChar d) = true := by
    decide +kernel
  rw [isInert, List.all_eq_true]
  intro d hd
  have hmark := Bool.and_eq_true_iff.1 (List.all_eq_true.1 hmarks d hd)
  cases hsame : sameFold d c with
  | false => rfl
  | true =>
    rw [eq_of_sameFold hmark.1 hsame] at h
    simp [h] at hmark

/-- The names of a chain with dots between them: what is in them, and at their
ends. -/
structure IsChainText (t : Text) : Prop where
  allowed : ∀ c ∈ t, isChainChar c = true ∨ c = ' ' ∨ c = '.'
  head : ∃ c ∈ t.head?, isChainChar c = true
  last : ∃ c ∈ t.getLast?, isChainChar c = true

namespace IsChainText

open StopSet

variable {t : Text}

theorem ne_nil (h : IsChainText t) : t ≠ [] := by
  rintro rfl
  obtain ⟨c, hc, -⟩ := h.head
  cases hc

theorem isInert (h : IsChainText t) : ∀ c ∈ t, isInert c = true := by
  intro c hc
  rcases h.allowed c hc with hchar | rfl | rfl
  · exact isInert_of_isChainChar hchar
  · decide +kernel
  · decide +kernel

/-- At either end of it stands a character of names. -/
theorem of_mem_ends (h : IsChainText t) {c : Char} (hc : c ∈ t.head? ∨ c ∈ t.getLast?) :
    isChainChar c = true := by
  obtain ⟨d, hd, hhead⟩ := h.head
  obtain ⟨e, he, hlast⟩ := h.last
  rcases hc with hc | hc
  · rw [Option.mem_unique hc hd]
    exact hhead
  · rw [Option.mem_unique hc he]
    exact hlast

theorem isBlank_ends (h : IsChainText t) {c : Char} (hc : c ∈ t.head? ∨ c ∈ t.getLast?) :
    isBlank c = false :=
  (isTitleChar_iff.1 (isTitleChar_of_isChainChar (h.of_mem_ends hc))).1

theorem trim_eq_self (h : IsChainText t) : Text.trim t = t :=
  Text.trim_eq_self (fun _ hc => h.isBlank_ends (.inl hc)) fun _ hc => h.isBlank_ends (.inr hc)

theorem passes (h : IsChainText t) (k : Text) : StopSet.all.Passes k t :=
  passes_of_isInert h.isInert (.inl fun _ hc => h.isBlank_ends (.inr hc))

theorem ofChunk (h : IsChainText t) : Token.ofChunk t = .text ∨ Token.ofChunk t = .orWord := by
  obtain ⟨c, hc, hchar⟩ := h.head
  obtain ⟨u, rfl⟩ := List.head?_eq_some_iff.1 hc
  refine Token.ofChunk_word u (fun hmem => ?_) fun hless => ?_
  · have hmarks : ['[', ']', ':', '|', '+'].all (fun d => !isChainChar d) = true := by
      decide +kernel
    have hmark := List.all_eq_true.1 hmarks c hmem
    rw [hchar] at hmark
    cases hmark
  · have hsmall : c.toNat < 128 := toNat_lt_of_toLower (by rw [hless]; decide)
    have hmark := sameFold_of_isInert (d := '<') (isInert_of_isChainChar hchar) (by decide)
    rw [sameFold_ascii (by decide) hsmall, hless] at hmark
    exact absurd hmark (by decide)

end IsChainText

namespace IsChainName

variable {t : Text}

/-- A name, as it can be checked. -/
theorem of_all (hall : t.all (fun c => isChainChar c || c == ' ') = true)
    (hends : t.head?.any isChainChar = true ∧ t.getLast?.any isChainChar = true)
    (hother : t ≠ ['-'] ∧ Text.eqIgnoreAsciiCase t categoryName = false ∧
      Text.eqIgnoreAsciiCase t conceptName = false) : IsChainName t where
  allowed c hc := by simpa using List.all_eq_true.1 hall c hc
  head := (Option.any_eq_true _ _).1 hends.1
  last := (Option.any_eq_true _ _).1 hends.2
  notMinus := hother.1
  notCategory := hother.2.1
  notConcept := hother.2.2

theorem isChainText (h : IsChainName t) : IsChainText t :=
  ⟨fun c hc => (h.allowed c hc).imp_right .inl, h.head, h.last⟩

theorem dot_not_mem (h : IsChainName t) : '.' ∉ t := by
  intro hmem
  rcases h.allowed '.' hmem with hdot | hdot <;> exact absurd hdot (by decide)

theorem map_foldCode_ne (h : IsChainName t) :
    categoryName.map foldCode ≠ t.map foldCode ∧ conceptName.map foldCode ≠ t.map foldCode :=
  ⟨InlineQuery.map_foldCode_ne (by decide) h.notCategory,
    InlineQuery.map_foldCode_ne (by decide) h.notConcept⟩

/-- A property has the name. -/
theorem exists_read? (h : IsChainName t) (capital : Bool) :
    ∃ property, Property.read? capital t = some property := by
  obtain ⟨c, hc, hlast⟩ := h.last
  have htitle := isTitleChar_of_isChainChar hlast
  have hchars : ∀ c ∈ t, isTitleChar c = true ∨ c = ' ' :=
    fun c hc => (h.allowed c hc).imp_left isTitleChar_of_isChainChar
  unfold Property.read?
  rw [h.isChainText.trim_eq_self]
  split
  · next name =>
    have hne : name ≠ [] := by
      rintro rfl
      exact h.notMinus rfl
    rw [List.getLast?_cons_of_ne_nil hne] at hc
    obtain ⟨label, hlabel⟩ := exists_normalizeTitle? capital (List.forall_mem_cons.1 hchars).2
      ⟨c, List.mem_of_getLast? hc, htitle⟩
    exact ⟨_, by rw [hlabel]; rfl⟩
  · obtain ⟨label, hlabel⟩ := exists_normalizeTitle? capital hchars
      ⟨c, List.mem_of_getLast? hc, htitle⟩
    exact ⟨_, by rw [hlabel]; rfl⟩

end IsChainName

theorem isChainText_join {name : Text} {names : List Text}
    (h : ∀ t ∈ name :: names, IsChainName t) : IsChainText (Text.join ['.'] (name :: names)) := by
  induction names generalizing name with
  | nil => exact (h name List.mem_cons_self).isChainText
  | cons following names ih =>
    obtain ⟨hname, hothers⟩ := List.forall_mem_cons.1 h
    have hname := hname.isChainText
    have hrest := ih hothers
    rw [Text.join, List.append_assoc]
    refine ⟨fun c hc => ?_, ?_, ?_⟩
    · rcases List.mem_append.1 hc with hc | hc
      · exact hname.allowed c hc
      · rcases List.mem_cons.1 hc with rfl | hc
        · exact .inr (.inr rfl)
        · exact hrest.allowed c hc
    · obtain ⟨c, hc, hhead⟩ := hname.head
      exact ⟨c, by rw [List.head?_append, Option.mem_def.1 hc]; rfl, hhead⟩
    · obtain ⟨c, hc, hlast⟩ := hrest.last
      refine ⟨c, ?_, hlast⟩
      rw [List.getLast?_append, List.singleton_append, List.getLast?_cons, Option.mem_def.1 hc]
      rfl

namespace Reader

open State

variable {r : Reader} {s : State}

/-- Names that are joined with dots are read as the chain of their
properties. -/
theorem readsAsChain_join {names : List Text} (hnames : ∀ name ∈ names, IsChainName name)
    {outer : List Property} {last : Property}
    (houter : ∀ property ∈ outer, r.config.valueType property = .page)
    (hread : names.map (Property.read? r.config.capitalLinks) = (outer ++ [last]).map some) :
    r.ReadsAsChain (Text.join ['.'] names) ⟨outer, last, r.config.valueType last⟩ := by
  cases names with
  | nil => simp at hread
  | cons name names => ?_
  have htext := isChainText_join hnames
  have hclass : categoryName.map foldCode ≠ (Text.join ['.'] (name :: names)).map foldCode ∧
      conceptName.map foldCode ≠ (Text.join ['.'] (name :: names)).map foldCode := by
    cases names with
    | nil => exact (hnames name List.mem_cons_self).map_foldCode_ne
    | cons following names =>
      refine map_foldCode_ne_of_mem (.inl rfl) ?_
      rw [Text.join, List.append_assoc]
      exact List.mem_append_right _ List.mem_cons_self
  have hnot {c : Char} (hc : isChainChar c = false) :
      (Text.join ['.'] (name :: names)).head? ≠ some c ∧
        (Text.join ['.'] (name :: names)).getLast? ≠ some c := by
    constructor
    · exact fun h => absurd (htext.of_mem_ends (.inl h)) (by rw [hc]; decide)
    · exact fun h => absurd (htext.of_mem_ends (.inr h)) (by rw [hc]; decide)
  refine ⟨htext.ne_nil, htext.passes, fun k => ?_, ?_, (hnot (by decide)).1, ?_, ?_⟩
  · exact StopSet.leadingMarks_of_piece (':' :: k)
      (fun c hc => sameFold_of_isInert (htext.isInert c hc) (by decide)) (by decide)
      (fun _ => hclass) .all
  · rw [htext.trim_eq_self]
    exact htext.ofChunk
  · rw [htext.trim_eq_self]
    exact (hnot (by decide)).2
  · rw [chain, if_neg (hnot (by decide)).1,
      Text.splitAll_join (List.cons_ne_nil _ _) fun name hname => (hnames name hname).dot_not_mem]
    exact chainFrom_ok [] houter hread

/-- Each name of a chain is that of a property. -/
theorem exists_properties (capital : Bool) {names : List Text}
    (h : ∀ name ∈ names, IsChainName name) :
    ∃ properties : List Property, names.map (Property.read? capital) = properties.map some := by
  induction names with
  | nil => exact ⟨[], rfl⟩
  | cons name names ih =>
    obtain ⟨hname, hnames⟩ := List.forall_mem_cons.1 h
    obtain ⟨property, hproperty⟩ := hname.exists_read? capital
    obtain ⟨properties, hproperties⟩ := ih hnames
    exact ⟨property :: properties, by rw [List.map_cons, hproperty, hproperties, List.map_cons]⟩

-- ========================================================= values of a chain

/-- A value is read by the property that has it, whichever chain leads
there. -/
theorem readOneValue_congr {c c' : Chain} (hlast : c'.last = c.last)
    (htype : c'.valueType = c.valueType) (result : Option Description) (s : State) :
    (r.readOneValue c' result s).val = (r.readOneValue c result s).val := by
  cases htoken : Token.ofChunk (r.next s).text with
  | wildcard => rw [readOneValue_wildcard htoken, readOneValue_wildcard htoken, htype]
  | openQuery =>
    rw [readOneValue_openQuery htoken, readOneValue_openQuery htoken, addSubquery, addSubquery,
      htype, hlast]
  | text =>
    rw [readOneValue_literal (.inl htoken), readOneValue_literal (.inl htoken), addLiteral,
      addLiteral, htype, hlast]
  | orWord =>
    rw [readOneValue_literal (.inr htoken), readOneValue_literal (.inr htoken), addLiteral,
      addLiteral, htype, hlast]
  | _ =>
    have hquery : Token.ofChunk (r.next s).text ≠ .openQuery := by simp [htoken]
    have hdelimiter : (Token.ofChunk (r.next s).text).isDelimiter = true := by
      simp [htoken, Token.isDelimiter]
    rw [readOneValue_delimiter hquery hdelimiter, readOneValue_delimiter hquery hdelimiter]

theorem readValues_congr {c c' : Chain} (hlast : c'.last = c.last)
    (htype : c'.valueType = c.valueType) (result : Option Description) (s : State) :
    (r.readValues c' result s).val = (r.readValues c result s).val := by
  have hone := readOneValue_congr (r := r) hlast htype result s
  by_cases hbars : Token.ofChunk (r.readOneValue c result s).val.terminator.text = .bars
  · have hlt := (r.readOneValue c result s).property.2
      (Token.ne_nil_of_ofChunk hbars (by decide))
    rw [readValues_more hbars, readValues_more (by rw [hone]; exact hbars), hone]
    exact readValues_congr hlast htype _ _
  · rw [readValues_last hbars, readValues_last (by rw [hone]; exact hbars), hone]
termination_by s.rest.length
decreasing_by exact hlt

-- ======================================================= queries of one atom

/-- The query that is a condition on a chain of properties with these names. -/
def propertyQuery (names : List Text) (value : Text) : Text :=
  ['[', '['] ++ (Text.join ['.'] names ++ ([':', ':'] ++ (value ++ [']', ']'])))

theorem closeProperty_closing (hr : r.Permissive) (mark : Nat) (restrict : Bool) (c : Chain)
    {values : Members} {inner : Description} (hresult : values.result = some inner)
    (htext : values.terminator.text = [']', ']']) :
    r.closeProperty mark restrict c values =
      ⟨some (c.describe inner), false, leaveAtom values.terminator.state⟩ := by
  obtain ⟨result, text, s⟩ := values
  obtain rfl : result = some inner := hresult
  obtain rfl : text = [']', ']'] := htext
  exact hr.finishAtom mark restrict false (c.describe inner) s

/-- **The values alone decide.** If a condition on a chain is all that a query
means, then in front of the same values any other chain with the same last
property makes a query of its own, which leaves the reader in the same state. -/
theorem read_replace_chain (hr : r.Unrestricted) {names : List Text} {c : Chain}
    (hnames : r.ReadsAsChain (Text.join ['.'] names) c) {value : Text}
    (hquiet : (r.read (propertyQuery names value)).state.diagnostics = [])
    (hsingle : IsSingle (some (r.read (propertyQuery names value)).description)) :
    ∃ inner state, state.diagnostics = [] ∧ ∀ (names' : List Text) (c' : Chain),
      r.ReadsAsChain (Text.join ['.'] names') c' → c'.last = c.last →
      c'.valueType = c.valueType →
        r.read (propertyQuery names' value) = ⟨c'.describe inner, state⟩ := by
  let values := (r.readValues c none ⟨value ++ [']', ']'], [.atom], []⟩).val
  let row (d : Description) : Outcome :=
    (r.readAlternatives 0 false ⟨some d, [], false, false⟩ (leaveAtom values.terminator.state)).val
  have hatom {names' : List Text} {c' : Chain}
      (hnames' : r.ReadsAsChain (Text.join ['.'] names') c') (hlast : c'.last = c.last)
      (htype : c'.valueType = c.valueType) :
      (r.readAtom false ⟨Text.join ['.'] names' ++ ([':', ':'] ++ (value ++ [']', ']'])),
        [], []⟩).val = r.closeProperty 0 false c' values := by
    rw [readAtom_chain hr.labels hnames' rfl false]
    exact congrArg _ (readValues_congr hlast htype none _)
  have hwhole {names' : List Text} {c' : Chain}
      (hnames' : r.ReadsAsChain (Text.join ['.'] names') c') (hlast : c'.last = c.last)
      (htype : c'.valueType = c.valueType) :=
    hatom hnames' hlast htype ▸ readSubquery_atom hr.toPermissive
      (Text.join ['.'] names' ++ ([':', ':'] ++ (value ++ [']', ']'])))
  rw [hr.read, propertyQuery, hwhole hnames rfl rfl] at hquiet hsingle
  -- nothing is reported of the values, of the end of the atom, and behind it
  have hvalues : State.Precedes ⟨value ++ [']', ']'], [.atom], []⟩ values.terminator.state :=
    precedes_readValues r c none _
  have hclose := precedes_closeProperty r 0 false c values
  obtain ⟨hquietAtom, hquietRow⟩ :=
    (hvalues.trans hclose).quiet (precedes_readAlternatives r 0 false _ _) hquiet
  obtain ⟨hquietValues, hquietClose⟩ := hvalues.quiet hclose hquietAtom
  obtain ⟨⟨inner, hinner⟩, htext⟩ :=
    closeProperty_quiet (congrArg List.length hquietValues).symm hquietClose
  have hclosing (c' : Chain) : r.closeProperty 0 false c' values =
      ⟨some (c'.describe inner), false, leaveAtom values.terminator.state⟩ :=
    closeProperty_closing hr.toPermissive 0 false c' hinner htext
  rw [hclosing] at hquiet hsingle hquietRow
  have hrow : IsSingle (row (c.describe inner)).result := by
    have hsingle : IsSingle (some ((row (c.describe inner)).result.getD (.thing []))) := hsingle
    cases hresult : (row (c.describe inner)).result with
    | some d => rwa [hresult] at hsingle
    | none =>
      rw [hresult] at hsingle
      obtain ⟨_, _, _, hthing⟩ := hsingle
      cases hthing
  obtain ⟨-, hreplace⟩ := (replaceable_preserved hr.toPermissive).alternatives 0 false
    ⟨some (c.describe inner), [], false, false⟩ (leaveAtom values.terminator.state) hquietRow hrow
  obtain ⟨-, hothers⟩ := hreplace _ rfl
  refine ⟨inner, (row (c.describe inner)).state, hquiet, fun names' c' hnames' hlast htype => ?_⟩
  have hother : row (c'.describe inner) =
      { row (c.describe inner) with result := some (c'.describe inner) } := hothers _
  rw [hr.read, propertyQuery, hwhole hnames' hlast htype, hclosing]
  show Parsed.mk ((row (c'.describe inner)).result.getD _) (row (c'.describe inner)).state = _
  rw [hother]
  rfl

/-- **A subquery as a value means what it means as a query.** -/
theorem read_nested (hr : r.Unrestricted) {name : Text} {c : Chain}
    (hname : r.ReadsAsChain (Text.join ['.'] [name]) c) (htype : c.valueType = .page) {q : Text}
    (hquiet : (r.read q).state.diagnostics = []) :
    r.read (propertyQuery [name] (grouped q)) =
      ⟨c.describe (r.read q).description, ⟨[], [], []⟩⟩ := by
  obtain ⟨p, hp, hd⟩ := exists_consists hr hquiet
  let inside : State := ⟨grouped q ++ [']', ']'], [.atom], []⟩
  have hsub : (r.readSubquery true ⟨q ++ (['<', '/', 'q', '>'] ++ [']', ']']),
      [.subquery, .atom], []⟩).val.result = some (r.read q).description ∧
      (r.readSubquery true ⟨q ++ (['<', '/', 'q', '>'] ++ [']', ']']),
        [.subquery, .atom], []⟩).val.state = ⟨[']', ']'], [.atom], []⟩ := by
    have hasked := readSubquery_restrict hr.toPermissive true false
      ⟨q ++ (['<', '/', 'q', '>'] ++ [']', ']']), [.subquery, .atom], []⟩
    rwa [hp.readSubquery hr, hd] at hasked
  have hopen : r.next inside = ⟨['<', 'q', '>'],
      ⟨q ++ (['<', '/', 'q', '>'] ++ [']', ']']), [.atom], []⟩⟩ := by
    refine next_mark (by decide) ?_
    show Text.trimFront (grouped q ++ [']', ']']) = _
    rw [grouped, List.append_assoc, List.append_assoc]
    rfl
  have hend : r.next ⟨[']', ']'], [.atom], []⟩ = ⟨[']', ']'], ⟨[], [.atom], []⟩⟩ :=
    next_mark (by decide) rfl
  have hone : (r.readOneValue c none inside).val =
      ⟨some (r.read q).description, ⟨[']', ']'], ⟨[], [.atom], []⟩⟩⟩ := by
    rw [readOneValue_openQuery (by rw [hopen]; rfl), addSubquery, if_pos htype, hr.combine, hopen,
      State.enter]
    dsimp only
    rw [hsub.1, hsub.2, hend]
    rfl
  have hvalues : (r.readValues c none inside).val =
      ⟨some (r.read q).description, ⟨[']', ']'], ⟨[], [.atom], []⟩⟩⟩ := by
    have hclosing : Token.ofChunk [']', ']'] ≠ .bars := by decide
    rw [readValues_last (by rw [hone]; exact hclosing), hone]
  have hatom : (r.readAtom false ⟨Text.join ['.'] [name] ++
      ([':', ':'] ++ (grouped q ++ [']', ']'])), [], []⟩).val =
      ⟨some (c.describe (r.read q).description), false, ⟨[], [], []⟩⟩ := by
    rw [readAtom_chain hr.labels hname rfl false]
    show r.closeProperty 0 false c (r.readValues c none inside).val = _
    rw [hvalues]
    exact closeProperty_closing hr.toPermissive 0 false c rfl rfl
  exact read_atom hr.toPermissive hatom

/-- **Chains are short for subqueries.** On a wiki with the usual names for its
classes that permits everything and restricts nothing, take names of properties
of which all but the last have pages as their values, and any text behind the
last that makes a condition on it alone. Behind the whole chain this text means
what it means behind the first name with the rest of the chain in a subquery,
and nothing is reported of either. -/
theorem read_chain_eq_read_nested (config : Config)
    (hcategory : config.categoryLabel = categoryName)
    (hconcept : config.conceptLabel = conceptName) (hdefaults : config.defaultNamespaces = none)
    (hall : ∀ feature, config.features.has feature = true)
    (first : Text) (middle : List Text) (last value : Text)
    (hnames : ∀ name ∈ first :: (middle ++ [last]), IsChainName name)
    (hpages : ∀ name ∈ first :: middle, ∀ property,
      Property.read? config.capitalLinks name = some property → config.valueType property = .page)
    (hquiet : ((ofConfig config).read (propertyQuery [last] value)).state.diagnostics = [])
    (hsingle : ∃ property inner ps,
      ((ofConfig config).read (propertyQuery [last] value)).description =
        .someProperty property inner ps) :
    let r := ofConfig config
    let chain := r.read (propertyQuery (first :: (middle ++ [last])) value)
    let nested := r.read (propertyQuery [first] (grouped (propertyQuery (middle ++ [last]) value)))
    chain.description = nested.description ∧ chain.state.diagnostics = [] ∧
      nested.state.diagnostics = [] := by
  intro r chain nested
  have hr : r.Unrestricted := unrestricted_ofConfig hcategory hconcept hdefaults hall
  obtain ⟨hfirst, hothers⟩ := List.forall_mem_cons.1 hnames
  obtain ⟨hmiddle, hlast⟩ := List.forall_mem_append.1 hothers
  obtain ⟨p, hp⟩ := hfirst.exists_read? config.capitalLinks
  obtain ⟨q, hq⟩ := (hlast last List.mem_cons_self).exists_read? config.capitalLinks
  obtain ⟨ps, hps⟩ := exists_properties config.capitalLinks hmiddle
  have hpage : config.valueType p = .page := hpages first List.mem_cons_self p hp
  have hpages : ∀ property ∈ ps, config.valueType property = .page := by
    intro property hproperty
    have hmem : some property ∈ middle.map (Property.read? config.capitalLinks) :=
      hps ▸ List.mem_map_of_mem hproperty
    obtain ⟨name, hname, hread⟩ := List.mem_map.1 hmem
    exact hpages name (List.mem_cons_of_mem first hname) property hread
  have hchainLast : r.ReadsAsChain (Text.join ['.'] [last]) ⟨[], q, config.valueType q⟩ :=
    readsAsChain_join hlast (List.forall_mem_nil _) (congrArg ([·]) hq)
  have hchainFirst : r.ReadsAsChain (Text.join ['.'] [first]) ⟨[], p, config.valueType p⟩ :=
    readsAsChain_join (List.forall_mem_singleton.2 hfirst) (List.forall_mem_nil _)
      (congrArg ([·]) hp)
  have hbehind : (middle ++ [last]).map (Property.read? config.capitalLinks) =
      (ps ++ [q]).map some := by
    rw [List.map_append, List.map_append, hps, List.map_singleton, hq, List.map_singleton]
  have hchainBehind : r.ReadsAsChain (Text.join ['.'] (middle ++ [last]))
      ⟨ps, q, config.valueType q⟩ := readsAsChain_join hothers hpages hbehind
  have hchainWhole : r.ReadsAsChain (Text.join ['.'] (first :: (middle ++ [last])))
      ⟨p :: ps, q, config.valueType q⟩ := by
    have hread : (first :: (middle ++ [last])).map (Property.read? config.capitalLinks) =
        (p :: ps ++ [q]).map some := by
      rw [List.map_cons, hp, hbehind]
      rfl
    exact readsAsChain_join hnames (List.forall_mem_cons.2 ⟨hpage, hpages⟩) hread
  obtain ⟨property, inner, requests, hmeans⟩ := hsingle
  obtain ⟨inner, state, hstate, hreplace⟩ := read_replace_chain hr hchainLast hquiet
    ⟨property, inner, requests, congrArg some hmeans⟩
  have hwhole : chain = ⟨Chain.describe ⟨p :: ps, q, config.valueType q⟩ inner, state⟩ :=
    hreplace _ _ hchainWhole rfl rfl
  have hrest := hreplace _ _ hchainBehind rfl rfl
  have hnested := read_nested hr hchainFirst hpage
    (q := propertyQuery (middle ++ [last]) value) (by rw [hrest]; exact hstate)
  rw [hrest] at hnested
  rw [hwhole, show nested = _ from hnested]
  exact ⟨rfl, hstate, rfl⟩

/-- Three names, of which the second is that of an inverse property, and two
values. -/
theorem read_chain_eq_read_nested_inverse :
    let r := ofConfig {}
    let names := ["Located in", "-Capital of", "City"].map String.toList
    let city : Property := ⟨"City".toList, false⟩
    let one (name : String) := Description.value (.page (.main name.toList)) (some city) .equal []
    let single := r.read "[[City::Berlin||Paris]]".toList
    let chain := r.read "[[Located in.-Capital of.City::Berlin||Paris]]".toList
    let nested := r.read "[[Located in::<q>[[-Capital of.City::Berlin||Paris]]</q>]]".toList
    ((∀ name ∈ names, IsChainName name) ∧ single.state.diagnostics = [] ∧
        single.description =
          .someProperty city (.disjunction [one "Berlin", one "Paris"] none false []) []) ∧
      chain.description = nested.description ∧ chain.state.diagnostics = [] ∧
      nested.state.diagnostics = [] := by
  intro r names city one single chain nested
  have hnames : ∀ name ∈ names, IsChainName name :=
    List.forall_mem_cons.2 ⟨.of_all (by decide +kernel) (by decide +kernel) (by decide +kernel),
      List.forall_mem_cons.2 ⟨.of_all (by decide +kernel) (by decide +kernel) (by decide +kernel),
        List.forall_mem_singleton.2
          (.of_all (by decide +kernel) (by decide +kernel) (by decide +kernel))⟩⟩
  have hchain : Reader.chain {} "City".toList = .ok ⟨[], city, .page⟩ := rfl
  have hsingle : single.description =
      .someProperty city (.disjunction [one "Berlin", one "Paris"] none false []) [] ∧
      single.state.diagnostics = [] := by
    unfold single read
    rw [readSubquery_ne_nil (by decide +kernel), readAlternatives_openAtom (by decide +kernel),
      readAtom_property (by decide +kernel) (by decide +kernel) (by decide +kernel)
        (by decide +kernel),
      readProperty_ok hchain,
      readValues_more (by rw [readOneValue_literal (by decide +kernel)]; decide +kernel),
      readOneValue_literal (by decide +kernel),
      readValues_last (by rw [readOneValue_literal (by decide +kernel)]; decide +kernel),
      readOneValue_literal (by decide +kernel), readAlternatives_finish (by decide +kernel)]
    decide +kernel
  have hpages : ∀ property, Config.valueType {} property = .page := fun property =>
    ite_self _
  exact ⟨⟨hnames, hsingle.2, hsingle.1⟩, read_chain_eq_read_nested {} rfl rfl rfl FeatureSet.has_all
    "Located in".toList ["-Capital of".toList] "City".toList "Berlin||Paris".toList hnames
    (fun name _ property _ => hpages property) hsingle.2 ⟨_, _, _, hsingle.1⟩⟩

end Reader

end InlineQuery
