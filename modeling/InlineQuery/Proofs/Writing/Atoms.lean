/-
Reading the atoms that canonical trees are written as.

Each lemma is about one kind of atom with an arbitrary query behind it: what
the atom says is read completely, nothing is reported, and the reader stands
where that query begins. Property conditions are read up to their values
here; the values come from the tree and are the matter of `RoundTrip`.
-/
import InlineQuery.Proofs.Reading.Steps
import InlineQuery.Proofs.Writing.Canonical

namespace InlineQuery

open Description

namespace Config.Standard

variable {config : Config} (h : config.Standard)

include h

theorem labels_eq : config.labels = canonicalLabels := by
  rw [Config.labels, h.categoryLabel, h.conceptLabel]
  rfl

theorem namespaceId?_eq {entry : Text × NamespaceId} (hentry : entry ∈ canonicalNamespaces) :
    config.namespaceId? entry.1 = some entry.2 := by
  unfold Config.namespaceId?
  rw [h.categoryLabel, h.conceptLabel, h.namespaces]
  revert entry
  decide

theorem namespaceOf_eq {entry : Text × NamespaceId} (hentry : entry ∈ canonicalNamespaces) :
    Reader.namespaceOf config entry.2 = .inNamespace entry.2 entry.1 [] := by
  have hname : config.namespaceName? entry.2 = some entry.1 := by
    unfold Config.namespaceName?
    rw [h.categoryLabel, h.conceptLabel, h.namespaces]
    revert entry
    decide
  rw [Reader.namespaceOf, hname]
  rfl

end Config.Standard

namespace Token

/-- Every token but the words and `+` begins with a character of its own. -/
theorem ofChunk_word {c : Char} (t : Text) (hc : c ∉ ['[', ']', ':', '|', '+'])
    (hless : c.toLower ≠ '<') :
    ofChunk (c :: t) = .text ∨ ofChunk (c :: t) = .orWord := by
  simp only [List.mem_cons, List.not_mem_nil, or_false, not_or] at hc
  obtain ⟨h₁, h₂, h₃, h₄, h₅⟩ := hc
  unfold ofChunk
  rw [if_neg (List.cons_ne_nil c t), if_neg (by simp [h₁]), if_neg (by simp [h₂]),
    if_neg (by simp [h₃]), if_neg (by simp [h₄]), if_neg (by simp [h₄]), if_neg (by simp [h₅])]
  split
  · exact .inr rfl
  · rw [if_neg (by simp [hless]), if_neg (by simp [hless])]
    exact .inl rfl

theorem ofChunk_of_head {t : Text} (hne : t ≠ [])
    (h : ∀ c ∈ t.head?, isNameChar c = true ∨ c = '-') :
    ofChunk t = .text ∨ ofChunk t = .orWord := by
  cases t with
  | nil => exact absurd rfl hne
  | cons c t =>
    have hc : c ∉ ['[', ']', ':', '|', '+'] ∧ c.toLower ≠ '<' := by
      rcases h c rfl with hname | rfl
      · refine ⟨not_mem_of_isNameChar hname (by decide), fun heq => ?_⟩
        have := isNameChar_toLower hname
        rw [heq] at this
        exact absurd this (by decide)
      · decide
    exact ofChunk_word t hc.1 hc.2

end Token

namespace Reader

open StopSet

/-- A reader for a wiki with standard settings. -/
structure Standard (r : Reader) : Prop where
  config : r.config.Standard
  defaults : r.defaults = none

variable {r : Reader} {s : State} {k : Text} {mark : Nat} {restrict : Bool}

/-- Where everything is permitted, combinations leave the state alone. -/
theorem combine_eq (hr : r.Standard) (mode : Mode) (current incoming : Option Description)
    (s : State) :
    r.combine mode current incoming s =
      ⟨(InlineQuery.combine r.config.features mode current incoming).result, s⟩ := by
  have hstate := state_combine_of_permitted hr.config.features mode current incoming s
  calc r.combine mode current incoming s
      = ⟨(r.combine mode current incoming s).result, (r.combine mode current incoming s).state⟩ :=
        rfl
    _ = _ := by rw [hstate]; rfl

-- ============================================================ closing atoms

/-- An atom that is closed where it ends yields what it was given. -/
theorem finishAtom_closing (hr : r.Standard) (restricted : Bool) (d : Description)
    (hblocks : s.blocks.head? = some .atom) :
    r.finishAtom mark restrict restricted (some d) ⟨[']', ']'], s⟩ =
      ⟨some d, restricted, s.leave⟩ := by
  have hrestrict (s : State) :
      r.restrictAtom restrict restricted (some d) s = ⟨some d, restricted, s⟩ := by
    unfold restrictAtom
    rw [hr.defaults]
  unfold finishAtom
  simp only [Option.isNone_some, Bool.false_and, Bool.false_eq_true, if_false, hrestrict]
  show Outcome.mk _ _ (leaveAtom s) = _
  rw [leaveAtom, if_pos hblocks]

theorem classKind?_eq_none {t : Text} (config : Config) (h : t.getLast? ≠ some ':') :
    classKind? config t = none := by
  unfold classKind?
  cases hstrip : Text.stripLast? ':' t with
  | none => rfl
  | some front =>
    rw [Text.stripLast?_eq_some_iff.1 hstrip, List.getLast?_concat] at h
    exact absurd rfl h

-- ================================================= category lists, concepts

theorem cut_class {name : Text} (hname : name ∈ [categoryName, conceptName]) (k : Text) :
    StopSet.all.cut canonicalLabels (name ++ ':' :: k) = ⟨name ++ [':'], k⟩ := by
  simp only [List.mem_cons, List.not_mem_nil, or_false] at hname
  rcases hname with rfl | rfl
  · rw [cut, delimiter?_true canonicalLabels .all rfl]
    rfl
  · rw [cut, delimiter?_true canonicalLabels .all rfl]
    rfl

/-- A class atom is recognized by the name in front of its colon. -/
theorem readAtom_className (hr : r.Standard) {name : Text} {kind : ClassKind}
    (hname : (name, kind) ∈ [(categoryName, ClassKind.category), (conceptName, .concept)])
    (hrest : s.rest = name ++ ':' :: k) :
    (r.readAtom restrict s).val =
      r.classAtom kind s.diagnostics.length restrict { s.enter .atom with rest := k } := by
  have hcut : StopSet.all.cut r.config.labels s.rest = ⟨name ++ [':'], k⟩ := by
    rw [hr.config.labels_eq, hrest]
    refine cut_class ?_ k
    simp only [List.mem_cons, List.not_mem_nil, or_false, Prod.mk.injEq] at hname ⊢
    rcases hname with ⟨rfl, -⟩ | ⟨rfl, -⟩
    · exact .inl rfl
    · exact .inr rfl
  have hkind : classKind? r.config (Text.trim (name ++ [':'])) = some kind := by
    unfold classKind? Config.categoryNames Config.conceptNames
    rw [hr.config.categoryLabel, hr.config.conceptLabel]
    simp only [List.mem_cons, List.not_mem_nil, or_false, Prod.mk.injEq] at hname
    rcases hname with ⟨rfl, rfl⟩ | ⟨rfl, rfl⟩ <;> decide +kernel
  rw [readAtom_class (by rw [firstChunk, hcut]; exact hkind), opened, hcut]

theorem classMember_name (hr : r.Standard) {title : Text} (htitle : IsName title) :
    classMember r.config .category title =
        (some (.categories [Page.category title] r.config.expandsHierarchy []), none) ∧
      classMember r.config .concept title = (some (.concept (Page.concept title) []), none) := by
  unfold classMember
  rw [hr.config.capitalLinks, htitle.normalizeTitle?_eq_self, hr.config.categoryLabel,
    hr.config.conceptLabel]
  exact ⟨rfl, rfl⟩

/-- What is read of a piece in front of an ending. -/
theorem next_before_ending (hr : r.Standard) {w ending k : Text} (hne : w ≠ [])
    (hending : IsEnding ending) (hpasses : StopSet.all.Passes (ending ++ k) w)
    (hcolon : ∀ d ∈ w, sameFold ':' d = false) (hrest : s.rest = w ++ (ending ++ k)) :
    r.next s = ⟨Text.trim w, { s with rest := ending ++ k }⟩ := by
  have hstops := hending.stopsAt k
  rw [next_piece hr.config.labels_eq hrest hne hpasses (hending.leadingMarks hcolon k)
    (by rw [hstops.trimFront]; exact hstops.isSome), hstops.trimFront]

/-- A name in front of an ending, whatever stands behind that. -/
theorem next_name (hr : r.Standard) {title ending : Text} (htitle : IsName title)
    (hending : IsEnding ending) (hrest : s.rest = title ++ ending ++ k) :
    r.next s = ⟨title, { s with rest := ending ++ k }⟩ := by
  rw [List.append_assoc] at hrest
  rw [next_before_ending hr htitle.spaced.ne_nil hending (passes_spaced htitle.spaced)
    htitle.spaced.sameFold_colon hrest, htitle.spaced.trim_eq_self]

theorem ofChunk_name {title : Text} (htitle : IsName title) :
    Token.ofChunk title = .text ∨ Token.ofChunk title = .orWord :=
  Token.ofChunk_of_head htitle.spaced.ne_nil fun c hc => .inl (htitle.spaced.head_isNameChar c hc)

/-- One more member of a class atom. -/
theorem readClass_name (hr : r.Standard) (kind : ClassKind) (result : Option Description)
    {title ending : Text} (htitle : IsName title) (hending : IsEnding ending)
    (hrest : s.rest = title ++ ending ++ k) :
    r.readClass kind result s =
      let combined := (InlineQuery.combine r.config.features .disjunctive result
        (classMember r.config kind title).1).result
      if kind = .category ∧ Token.ofChunk ending = .bars then
        r.readClass kind combined { s with rest := k }
      else ⟨combined, ⟨ending, { s with rest := k }⟩⟩ := by
  have hproblem : (classMember r.config kind title).2 = none := by
    obtain ⟨hcategory, hconcept⟩ := classMember_name hr htitle
    cases kind
    · rw [hcategory]
    · rw [hconcept]
  have hdelimiter : (Token.ofChunk title).isDelimiter = false ∧
      Token.ofChunk title ≠ .wildcard := by
    rcases ofChunk_name htitle with h | h <;> rw [h] <;> exact ⟨rfl, by decide⟩
  have hnext : r.next { s with rest := ending ++ k } = ⟨ending, { s with rest := k }⟩ :=
    hending.next hr.config.labels_eq (hending.stopsAt k).trimFront
  rw [readClass]
  simp only [next_name hr htitle hending hrest, hdelimiter.1, hdelimiter.2, hproblem, reportAny,
    Bool.false_eq_true, if_false, combine_eq hr, hnext]

/-- The members of a category list are combined one by one. -/
theorem readClass_titles (hr : r.Standard) (result : Option Description) {titles : List Text}
    (hne : titles ≠ []) (htitles : ∀ t ∈ titles, IsName t)
    (hrest : s.rest = Text.join ['|', '|'] titles ++ [']', ']'] ++ k) :
    r.readClass .category result s =
      ⟨combineEach r.config.features .disjunctive result (titles.map fun title =>
        .categories [Page.category title] r.config.expandsHierarchy []),
      ⟨[']', ']'], { s with rest := k }⟩⟩ := by
  induction titles generalizing result s with
  | nil => exact absurd rfl hne
  | cons title titles ih =>
    have htitle := htitles title List.mem_cons_self
    have hmember := (classMember_name hr htitle).1
    cases titles with
    | nil =>
      rw [readClass_name hr .category result htitle .closing hrest, hmember]
      rfl
    | cons next titles =>
      have hsplit : s.rest = title ++ ['|', '|'] ++
          (Text.join ['|', '|'] (next :: titles) ++ [']', ']'] ++ k) := by
        rw [hrest, Text.join]
        simp only [List.append_assoc]
      rw [readClass_name hr .category result htitle .bars hsplit, hmember]
      exact ih _ (List.cons_ne_nil _ _) (fun t ht => htitles t (List.mem_cons_of_mem _ ht)) rfl

/-- Category lists of one page each combine to the list of all the pages. -/
theorem combineEach_categories {permitted : FeatureSet}
    (hall : ∀ feature, permitted.has feature = true) (hierarchy : Bool) {titles : List Text}
    (hne : titles ≠ []) :
    combineEach permitted .disjunctive none
        (titles.map fun title => .categories [Page.category title] hierarchy []) =
      some (.categories (titles.map Page.category) hierarchy []) := by
  have hmore (pages : List Page) (titles : List Text) :
      combineEach permitted .disjunctive (some (.categories pages hierarchy []))
          (titles.map fun title => .categories [Page.category title] hierarchy []) =
        some (.categories (pages ++ titles.map Page.category) hierarchy []) := by
    induction titles generalizing pages with
    | nil =>
      rw [List.map_nil, List.map_nil, List.append_nil]
      rfl
    | cons title titles ih =>
      rw [List.map_cons, combineEach, List.foldl_cons, combine_some hall]
      show combineEach permitted .disjunctive
        (some (.categories (pages ++ [Page.category title]) (hierarchy || hierarchy) [])) _ = _
      rw [Bool.or_self, ih, List.append_assoc]
      rfl
  cases titles with
  | nil => exact absurd rfl hne
  | cons title titles =>
    rw [List.map_cons, combineEach, List.foldl_cons, combine_none hall]
    exact hmore [Page.category title] titles

/-- Inside of its brackets, an atom is read as the condition, whatever stands
behind it. -/
def ReadsAsAtom (r : Reader) (content : Text) (d : Description) : Prop :=
  ∀ (s : State) (k : Text), s.rest = content ++ [']', ']'] ++ k →
    ∃ restricted, (r.readAtom false s).val = ⟨some d, restricted, { s with rest := k }⟩

theorem readsAsAtom_categories (hr : r.Standard) {titles : List Text} (hne : titles ≠ [])
    (htitles : ∀ t ∈ titles, IsName t) :
    r.ReadsAsAtom (categoryName ++ ':' :: Text.join ['|', '|'] titles)
      (.categories (titles.map Page.category) r.config.expandsHierarchy []) := by
  intro s k hrest
  refine ⟨false, ?_⟩
  rw [List.append_assoc, List.append_assoc, List.cons_append] at hrest
  rw [readAtom_className hr List.mem_cons_self hrest, classAtom,
    readClass_titles hr none hne htitles (List.append_assoc _ _ _).symm,
    combineEach_categories hr.config.features _ hne]
  exact finishAtom_closing hr false _ rfl

theorem readsAsAtom_concept (hr : r.Standard) {title : Text} (htitle : IsName title) :
    r.ReadsAsAtom (conceptName ++ ':' :: title) (.concept (Page.concept title) []) := by
  intro s k hrest
  refine ⟨false, ?_⟩
  rw [List.append_assoc, List.append_assoc, List.cons_append] at hrest
  rw [readAtom_className hr (List.mem_cons_of_mem _ List.mem_cons_self) hrest, classAtom,
    readClass_name hr .concept none htitle .closing (List.append_assoc _ _ _).symm]
  simp only [(classMember_name hr htitle).2, combine_none hr.config.features, reduceCtorEq,
    false_and, if_false]
  exact finishAtom_closing hr false _ rfl

-- ===================================================== pages and namespaces

/-- What an atom begins with, up to its first delimiter. -/
theorem cut_first {w : Text} (hne : w ≠ []) (hstops : StopsAt k)
    (hpasses : StopSet.all.Passes k w)
    (hleading : firstDelimiter? (StopSet.all.leadingMarks r.config.labels) (w ++ k) = none)
    (hrest : s.rest = w ++ k) :
    r.firstChunk s = w ∧ r.opened s = { s.enter .atom with rest := k } := by
  have hcut := cut_piece hne hpasses hleading (by rw [hstops.trimFront]; exact hstops.isSome)
  rw [firstChunk, opened, hrest, hcut, hstops.trimFront]
  exact ⟨rfl, rfl⟩

/-- An atom that is one chunk is what this chunk means as an article. -/
theorem readAtom_chunk {w : Text}
    (htoken : Token.ofChunk (Text.trim w) = .text ∨ Token.ofChunk (Text.trim w) = .orWord)
    (hpasses : StopSet.all.Passes ([']', ']'] ++ k) w)
    (hleading : firstDelimiter? (StopSet.all.leadingMarks r.config.labels)
      (w ++ ([']', ']'] ++ k)) = none)
    (hlast : (Text.trim w).getLast? ≠ some ':') (hrest : s.rest = w ++ ([']', ']'] ++ k)) :
    (r.readAtom restrict s).val =
      let member := articleMember r.config (Text.trim w)
      let combined := r.combine .disjunctive none member.1
        (reportAny member.2 { s.enter .atom with rest := [']', ']'] ++ k })
      r.finishAtom s.diagnostics.length restrict true combined.result
        ⟨[']', ']'], { combined.state with rest := k }⟩ := by
  have hne : w ≠ [] := by
    rintro rfl
    rcases htoken with h | h <;> exact absurd h (by decide)
  obtain ⟨hfirst, hopened⟩ := cut_first hne (IsEnding.closing.stopsAt k) hpasses hleading hrest
  have hnext : r.next (r.opened s) = ⟨[']', ']'], { s.enter .atom with rest := k }⟩ := by
    rw [hopened]
    exact next_mark (by decide) rfl
  have hempty : ¬ StartsEmpty (Text.trim (r.firstChunk s)) := by
    rw [hfirst, StartsEmpty]
    rcases htoken with h | h <;> rw [h] <;> decide
  have hquery : Token.ofChunk (Text.trim w) ≠ .openQuery := by
    rcases htoken with h | h <;> rw [h] <;> decide
  have hclosing (combined : Obtained) (h : combined.state.rest = [']', ']'] ++ k) :
      r.nextAt .atomContent combined.state = ⟨[']', ']'], { combined.state with rest := k }⟩ :=
    IsEnding.closing.nextAt_atomContent h
  have hrest : (r.combine .disjunctive none (articleMember r.config (Text.trim w)).1
      (reportAny (articleMember r.config (Text.trim w)).2
        { s.enter .atom with rest := [']', ']'] ++ k })).state.rest = [']', ']'] ++ k := by
    rw [rest_combine, rest_reportAny]
  rw [readAtom_article (by rw [hfirst]; exact classKind?_eq_none _ hlast) hempty
    (by rw [hnext]; show Token.ofChunk [']', ']'] ≠ .separator; decide), hfirst, hopened,
    articleAtom_last hquery]
  · dsimp only
    rw [hclosing _ hrest]
  · rw [hclosing _ hrest]
    show Token.ofChunk [']', ']'] ≠ .bars
    decide

/-- An atom is read as a page or a namespace if what is in it is one chunk
that names one. -/
theorem readsAsAtom_article (hr : r.Standard) {w : Text} {d : Description}
    (htoken : Token.ofChunk w = .text ∨ Token.ofChunk w = .orWord)
    (hpasses : ∀ k, StopSet.all.Passes k w) (hhead : ∀ c ∈ w.head?, sameFold 'C' c = false)
    (hlast : w.getLast? ≠ some ':') (htrim : Text.trim w = w)
    (hmember : articleMember r.config w = (some d, none)) : r.ReadsAsAtom w d := by
  intro s k hrest
  refine ⟨true, ?_⟩
  have hleading : firstDelimiter? (StopSet.all.leadingMarks r.config.labels)
      (w ++ ([']', ']'] ++ k)) = none := by
    rw [hr.config.labels_eq]
    refine leadingMarks_of_head (fun c hc => hhead c ?_) .all
    cases w with
    | nil => rcases htoken with h | h <;> exact absurd h (by decide)
    | cons d w => exact hc
  rw [← htrim] at htoken hlast
  rw [List.append_assoc] at hrest
  rw [readAtom_chunk htoken (hpasses _) hleading hlast hrest, htrim]
  simp only [hmember, reportAny, combine_eq hr, combine_none hr.config.features]
  exact finishAtom_closing hr true d rfl

/-- A colon is no delimiter on its own. -/
theorem passes_colon {w : Text}
    (hhead : ∀ c ∈ w.head?, sameFold ':' c = false ∧ sameFold '=' c = false) (hne : w ≠ [])
    (h : StopSet.all.Passes k w) : StopSet.all.Passes k (':' :: w) := by
  refine ⟨?_, h⟩
  cases w with
  | nil => exact absurd rfl hne
  | cons c w =>
    have hc := hhead c rfl
    have hcolon : sameFold '[' ':' = false ∧ sameFold ']' ':' = false ∧ sameFold ':' ':' = true ∧
        sameFold '<' ':' = false ∧ sameFold '|' ':' = false := by
      decide +kernel
    obtain ⟨h₁, h₂, h₃, h₄, h₅⟩ := hcolon
    show firstDelimiter? StopSet.all.anywhere (':' :: c :: (w ++ k)) = none
    simp [firstDelimiter?, anywhere, marks, bars, matchFront?, hc, h₁, h₂, h₃, h₄, h₅]

/-- Nor is it one with a name behind it. -/
theorem passes_colon_name {w : Text} (hhead : ∀ c ∈ w.head?, isNameChar c = true) (hne : w ≠ [])
    (h : StopSet.all.Passes k w) : StopSet.all.Passes k (':' :: w) :=
  passes_colon (fun c hc => ⟨sameFold_of_isNameChar (hhead c hc) (by decide),
    sameFold_of_isNameChar (hhead c hc) (by decide)⟩) hne h

/-- What all atoms of namespaces end with. -/
theorem passes_plus (k : Text) : StopSet.all.Passes k [':', '+'] := by
  refine passes_colon (by rintro c ⟨⟩; decide +kernel) (List.cons_ne_nil _ _) ?_
  exact passes_cons_inert (by decide +kernel) (by decide) (passes_nil .all k)

theorem ofChunk_colon {c : Char} (t : Text) (hcolon : c ≠ ':') (hequal : c ≠ '=') :
    Token.ofChunk (':' :: c :: t) = .text := by
  simp [Token.ofChunk, hcolon, hequal]

theorem splitOnce?_eq_none {c : Char} {t : Text} (h : c ∉ t) : Text.splitOnce? c t = none := by
  cases hsplit : Text.splitOnce? c t with
  | none => rfl
  | some parts =>
    refine absurd ?_ h
    rw [(Text.splitOnce?_eq_some_iff.1 hsplit).1]
    exact List.mem_append_right _ List.mem_cons_self

/-- A title names a page of the main namespace, with and without a colon in
front of it. -/
theorem page?_title (hr : r.Standard) {t title : Text} (htitle : IsName title)
    (ht : Text.trim t = title ∨ Text.trim t = ':' :: title) :
    page? r.config t = some (Page.main title) := by
  have hcolon : ':' ∉ title := htitle.spaced.not_mem (by decide) (by decide)
  have hmain : mainPage? r.config title = some (Page.main title) := by
    rw [mainPage?, hr.config.capitalLinks, htitle.normalizeTitle?_eq_self]
    rfl
  unfold page?
  rcases ht with ht | ht
  · rw [ht]
    split
    · exact absurd List.mem_cons_self hcolon
    · simp only [splitOnce?_eq_none hcolon, hmain]
  · rw [ht]
    simp only [splitOnce?_eq_none hcolon, hmain]

theorem articleMember_page (hr : r.Standard) {title : Text} (htitle : IsName title) :
    articleMember r.config (':' :: title) =
      (some (.value (.page (Page.main title)) none .equal []), none) := by
  have hcolon : ':' ∉ title := htitle.spaced.not_mem (by decide) (by decide)
  have htrim : Text.trim (':' :: title) = ':' :: title := by
    refine Text.trim_eq_self (by rintro d ⟨⟩; decide) fun d hd => ?_
    rw [List.getLast?_cons_of_ne_nil htitle.spaced.ne_nil] at hd
    exact isBlank_of_isNameChar (htitle.spaced.last_isNameChar d hd)
  have hname : namespaceName? (':' :: title) = none := by
    have hplus : Text.trim title ≠ ['+'] := by
      rw [htitle.spaced.trim_eq_self]
      intro heq
      have := htitle.spaced.head_isNameChar '+' (by rw [heq]; rfl)
      exact absurd this (by decide)
    have hsplit : Text.splitOnce? ':' (':' :: title) = some ([], title) := rfl
    simp only [namespaceName?, List.contains_eq_mem, hcolon, decide_false, Bool.false_eq_true,
      if_false, hsplit, if_neg hplus]
  rw [articleMember, hname, page?_title hr htitle (.inr htrim)]

theorem readsAsAtom_page (hr : r.Standard) {title : Text} (htitle : IsName title) :
    r.ReadsAsAtom (':' :: title) (.value (.page (Page.main title)) none .equal []) := by
  obtain ⟨c, u, rfl, hupper⟩ := htitle.head_isUpper
  have hname : isNameChar c = true := htitle.spaced.head_isNameChar c rfl
  have hc : c ≠ ':' ∧ c ≠ '=' := by
    have : c ∉ [':', '='] := not_mem_of_isNameChar hname (by decide)
    simpa using this
  have hlast : ∀ d ∈ (':' :: c :: u).getLast?, isNameChar d = true := by
    rw [List.getLast?_cons_cons]
    exact htitle.spaced.last_isNameChar
  refine readsAsAtom_article hr (.inl (ofChunk_colon u hc.1 hc.2))
    (fun k => passes_colon_name (by rintro d ⟨⟩; exact hname) (List.cons_ne_nil c u)
      (passes_spaced htitle.spaced))
    (by rintro d ⟨⟩; decide +kernel) (fun h => ?_)
    (Text.trim_eq_self (by rintro d ⟨⟩; decide) fun d hd => isBlank_of_isNameChar (hlast d hd))
    (articleMember_page hr htitle)
  exact absurd (hlast _ h) (by decide)

/-- The canonical names are names, but for that of the main namespace. -/
theorem canonicalNamespaces_spaced :
    ∀ entry ∈ canonicalNamespaces, entry.1 = [] ∨ Spaced entry.1 := by
  intro entry hentry
  simp only [canonicalNamespaces, List.mem_cons, List.not_mem_nil, or_false] at hentry
  rcases hentry with rfl | rfl | rfl | rfl | rfl | rfl | rfl | rfl | rfl | rfl | rfl | rfl
  · exact .inl rfl
  · exact .inr (.of_all (by decide))
  · exact .inr (.of_all (by decide))
  · have huser : "User".toList.all isNameChar = true := by decide
    exact .inr (.more (List.cons_ne_nil _ _) (List.all_eq_true.1 huser) (.of_all (by decide)))
  all_goals exact .inr (.of_all (by decide))

/-- What stands in the atom of a namespace. -/
def namespaceContent (id : NamespaceId) (label : Text) : Text :=
  (if id = NamespaceId.category then [':'] else []) ++ label ++ [':', '+']

theorem passes_namespaceContent {id : NamespaceId} {label : Text}
    (hentry : (label, id) ∈ canonicalNamespaces) (k : Text) :
    StopSet.all.Passes k (namespaceContent id label) := by
  unfold namespaceContent
  rcases canonicalNamespaces_spaced _ hentry with hlabel | hlabel
  · dsimp only at hlabel
    subst hlabel
    have hmain : id ≠ NamespaceId.category := by
      rintro rfl
      exact absurd hentry (by decide)
    rw [if_neg hmain]
    exact passes_plus k
  · have hall : StopSet.all.Passes k (label ++ [':', '+']) :=
      passes_append (passes_spaced hlabel) (passes_plus k)
    split
    · refine passes_colon_name (fun c hc => ?_) (by simp) hall
      cases label with
      | nil => exact absurd rfl hlabel.ne_nil
      | cons d label => exact hlabel.head_isNameChar c hc
    · exact hall

theorem readsAsAtom_inNamespace (hr : r.Standard) {id : NamespaceId} {label : Text}
    (hentry : (label, id) ∈ canonicalNamespaces) (hconcept : id ≠ NamespaceId.concept) :
    r.ReadsAsAtom (namespaceContent id label) (.inNamespace id label []) := by
  have hall : ∀ entry ∈ canonicalNamespaces, entry.2 ≠ NamespaceId.concept →
      Token.ofChunk (namespaceContent entry.2 entry.1) = .text ∧
        ((namespaceContent entry.2 entry.1).head?.all fun c => !sameFold 'C' c) = true ∧
        (namespaceContent entry.2 entry.1).getLast? ≠ some ':' ∧
        Text.trim (namespaceContent entry.2 entry.1) = namespaceContent entry.2 entry.1 ∧
        namespaceName? (namespaceContent entry.2 entry.1) = some entry.1 := by
    decide +kernel
  obtain ⟨htoken, hhead, hlast, htrim, hname⟩ := hall _ hentry hconcept
  have hletter : ∀ c ∈ (namespaceContent id label).head?, sameFold 'C' c = false :=
    fun c hc => by simpa using (Option.all_eq_true _ _).1 hhead c hc
  refine readsAsAtom_article hr (.inl htoken) (passes_namespaceContent hentry) hletter hlast
    htrim ?_
  rw [articleMember, hname]
  simp only [hr.config.namespaceId?_eq hentry, Option.map_some, hr.config.namespaceOf_eq hentry]

end Reader

end InlineQuery
