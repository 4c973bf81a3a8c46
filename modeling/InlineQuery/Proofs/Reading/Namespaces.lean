/-
Which namespaces are read back.

The atom that a namespace is written as, such as `[[Help:+]]`, is meant to be
read as that namespace again. Whether it is depends on the names of the wiki, of
which there are two tables: one in which the name of a number is found, and one
in which the number of a name is found. Where no name has a character in it that
delimiters begin with, the namespace is read back just if the second table
agrees and nothing else is made of the atom before it is looked at
(`read_write_namespaceOf`).

# What else can be made of it

A name in front of a colon is taken for the name of a class, if it is one in any
letter case. The name of the category namespace is written behind a colon, which
keeps it from being read so. The name of the concept namespace, which would need
one just as much, is not: on no wiki is that namespace read back
(`diagnostics_write_concept`).
-/
import InlineQuery.Proofs.Reading.Rows
import InlineQuery.Proofs.Writing.RoundTrip

namespace InlineQuery

open Description

-- ========================================================= names of classes

/-- The names that the two classes have on the wiki. -/
def Config.classNames (config : Config) : List Text :=
  [config.categoryLabel, categoryName, config.conceptLabel, conceptName]

/-- Letter case apart, the text is the name of a class. -/
def Config.NamesClass (config : Config) (t : Text) : Prop :=
  ∃ name ∈ config.classNames, name.map foldCode = t.map foldCode

/-- No delimiter begins with any of the characters in the name. -/
def IsPlain (name : Text) : Prop := ∀ c ∈ name, isInert c = true

/-- The names of the classes are not empty, and no delimiter begins in them. -/
structure Config.HasPlainClasses (config : Config) : Prop where
  category : config.categoryLabel ≠ [] ∧ IsPlain config.categoryLabel
  concept : config.conceptLabel ≠ [] ∧ IsPlain config.conceptLabel

theorem IsPlain.sameFold_eq_false {name : Text} (h : IsPlain name) {d : Char}
    (hd : d ∈ ['[', ']', ':', '<', '|']) : ∀ c ∈ name, sameFold d c = false :=
  fun c hc => sameFold_of_isInert (h c hc) hd

theorem IsPlain.colon_not_mem {name : Text} (h : IsPlain name) : ':' ∉ name := by
  intro hmem
  have hself := sameFold_of_isInert (d := ':') (h ':' hmem) (by decide)
  rw [sameFold_refl] at hself
  cases hself

/-- A text is matched by any other that differs in letter case only. -/
theorem matchFront?_of_map_foldCode {pattern t : Text} (h : pattern.map foldCode = t.map foldCode)
    (k : Text) : matchFront? pattern (t ++ k) = some (t, k) := by
  induction pattern generalizing t with
  | nil =>
    obtain rfl := List.map_eq_nil_iff.1 h.symm
    rfl
  | cons c pattern ih =>
    cases t with
    | nil => cases h
    | cons d t =>
      obtain ⟨hhead, htail⟩ := List.cons.inj h
      have hsame : sameFold c d = true := beq_iff_eq.2 hhead
      rw [List.cons_append, matchFront?, if_pos hsame, ih htail]
      rfl

namespace Config

variable {config : Config} {label : Text}

theorem HasPlainClasses.of_check (hvalid : config.check = .ok config)
    (hcategory : IsPlain config.categoryLabel) (hconcept : IsPlain config.conceptLabel) :
    config.HasPlainClasses := by
  have hne {name : Text} (hblank : ¬ Text.isBlankText name = true) : name ≠ [] := by
    rintro rfl
    exact hblank rfl
  unfold check at hvalid
  split at hvalid
  · cases hvalid
  · next hcategoryBlank =>
    split at hvalid
    · cases hvalid
    · next hconceptBlank =>
      exact ⟨⟨hne hcategoryBlank, hcategory⟩, ⟨hne hconceptBlank, hconcept⟩⟩

theorem HasPlainClasses.of_mem (h : config.HasPlainClasses) {name : Text}
    (hname : name ∈ config.classNames) : name ≠ [] ∧ IsPlain name := by
  have hcanonical : [categoryName, conceptName].all
      (fun name => name != [] && name.all isInert) = true := by
    decide +kernel
  have hcanonical {name : Text} (hname : name ∈ [categoryName, conceptName]) :
      name ≠ [] ∧ IsPlain name := by
    obtain ⟨hne, hplain⟩ := Bool.and_eq_true_iff.1 (List.all_eq_true.1 hcanonical name hname)
    exact ⟨by simpa using hne, List.all_eq_true.1 hplain⟩
  simp only [classNames, List.mem_cons, List.not_mem_nil, or_false] at hname
  rcases hname with rfl | rfl | rfl | rfl
  · exact h.category
  · exact hcanonical (by decide)
  · exact h.concept
  · exact hcanonical (by decide)

theorem HasPlainClasses.sameFold_eq_false (h : config.HasPlainClasses) {name : Text}
    (hname : name ∈ config.classNames) {d : Char} (hd : d ∈ ['[', ']', ':', '<', '|']) :
    ∀ c ∈ name, sameFold c d = false := by
  intro c hc
  rw [sameFold_comm]
  exact (h.of_mem hname).2.sameFold_eq_false hd c hc

/-- None of the names stands in front of the text with a colon behind it. -/
theorem leadingMarks_eq_none {t : Text}
    (h : ∀ name ∈ config.classNames, matchFront? (name ++ [':']) t = none) :
    firstDelimiter? (StopSet.all.leadingMarks config.labels) t = none := by
  refine List.findSome?_eq_none_iff.2 fun pattern hpattern => ?_
  have hpattern : pattern ∈ config.classNames.map fun name => name ++ [':'] := hpattern
  obtain ⟨name, hname, rfl⟩ := List.mem_map.1 hpattern
  exact h name hname

/-- No name begins with a colon. -/
theorem leadingMarks_of_colon (h : config.HasPlainClasses) (t : Text) :
    firstDelimiter? (StopSet.all.leadingMarks config.labels) (':' :: t) = none := by
  refine leadingMarks_eq_none fun name hname => ?_
  obtain ⟨d, rest, rfl⟩ := List.exists_cons_of_ne_nil (h.of_mem hname).1
  exact matchFront?_eq_none
    (h.sameFold_eq_false hname (by decide) d List.mem_cons_self) _ _

/-- A text is not the name of a class in front of `]`, and one that is not that
name is not in front of a colon. -/
theorem leadingMarks_of_plain (h : config.HasPlainClasses) (hlabel : IsPlain label) {c : Char}
    (hc : c = ']' ∨ c = ':' ∧ ¬ config.NamesClass label) (k : Text) :
    firstDelimiter? (StopSet.all.leadingMarks config.labels) (label ++ c :: k) = none := by
  refine leadingMarks_eq_none fun name hname => ?_
  have hmark : c ∈ ['[', ']', ':', '<', '|'] := by
    rcases hc with rfl | ⟨rfl, -⟩ <;> decide
  refine StopSet.matchFront?_label_eq_none k (h.sameFold_eq_false hname hmark)
    (hlabel.sameFold_eq_false (by decide)) ?_
  rcases hc with rfl | ⟨rfl, hclass⟩
  · exact .inl (by decide +kernel)
  · exact .inr fun heq => hclass ⟨name, hname, heq⟩

/-- The name of a class stands in front of a colon. -/
theorem leadingMarks_of_namesClass (h : config.HasPlainClasses) (hlabel : IsPlain label)
    (hclass : config.NamesClass label) (k : Text) :
    firstDelimiter? (StopSet.all.leadingMarks config.labels) (label ++ ':' :: k) =
      some (label ++ [':'], k) := by
  have hmatch {name : Text} (hfold : name.map foldCode = label.map foldCode) :
      matchFront? (name ++ [':']) (label ++ ':' :: k) = some (label ++ [':'], k) := by
    have hcolon : (name ++ [':']).map foldCode = (label ++ [':']).map foldCode := by
      rw [List.map_append, List.map_append, hfold]
    have hwhole := matchFront?_of_map_foldCode hcolon k
    rwa [List.append_assoc] at hwhole
  cases hfound : firstDelimiter? (StopSet.all.leadingMarks config.labels) (label ++ ':' :: k) with
  | none =>
    obtain ⟨name, hname, hfold⟩ := hclass
    have hnone := List.findSome?_eq_none_iff.1 hfound (name ++ [':'])
      (List.mem_map_of_mem (f := fun name => name ++ [':']) hname)
    rw [hmatch hfold] at hnone
    cases hnone
  | some found =>
    -- whichever name it is, it takes the same part off the text
    obtain ⟨pattern, hpattern, hsome⟩ := List.exists_of_findSome?_eq_some hfound
    have hpattern : pattern ∈ config.classNames.map fun name => name ++ [':'] := hpattern
    obtain ⟨name, hname, rfl⟩ := List.mem_map.1 hpattern
    by_cases hfold : name.map foldCode = label.map foldCode
    · rw [← hsome, hmatch hfold]
    · have hnone := StopSet.matchFront?_label_eq_none (c := ':') k
        (h.sameFold_eq_false hname (by decide)) (hlabel.sameFold_eq_false (by decide)) (.inr hfold)
      rw [hnone] at hsome
      cases hsome

theorem NamesClass.ne_nil (h : config.HasPlainClasses) (hclass : config.NamesClass label) :
    label ≠ [] := by
  rintro rfl
  obtain ⟨name, hname, hfold⟩ := hclass
  exact (h.of_mem hname).1 (List.map_eq_nil_iff.1 hfold)

end Config

-- ======================================================== atoms of namespaces

/-- What stands in the atom, up to `:+`. -/
def spelledName (id : NamespaceId) (label : Text) : Text :=
  (if id = NamespaceId.category then [':'] else []) ++ label

theorem Text.trim_plus (t : Text) : trim (t ++ [':', '+']) = trimFront t ++ [':', '+'] := by
  have hfront : trimFront (t ++ [':', '+']) = trimFront t ++ [':', '+'] := by
    rw [trimFront, trimFront, List.dropWhile_append]
    split
    · next hempty =>
      rw [List.isEmpty_iff.1 hempty]
      rfl
    · rfl
  have hlast : trimFront t ++ [':', '+'] = (trimFront t ++ [':']) ++ ['+'] := by
    rw [List.append_assoc]
    rfl
  rw [trim, hfront, hlast]
  exact trimBack_concat (by decide)

/-- A text that ends with `:+` is no delimiter. -/
theorem Token.ofChunk_plus (t : Text) : ofChunk (t ++ [':', '+']) = .text := by
  have hne {u : Text} (hlast : u.getLast? ≠ some '+') : t ++ [':', '+'] ≠ u := by
    rintro rfl
    simp at hlast
  have hsingle : t ++ [':', '+'] ≠ ['+'] := by
    intro heq
    have := congrArg List.length heq
    simp at this
  have hlower {u : Text} (hlast : u.getLast? ≠ some '+') :
      (t ++ [':', '+']).map Char.toLower ≠ u := by
    rintro rfl
    simp at hlast
  unfold ofChunk
  rw [if_neg (hne (by decide)), if_neg (hne (by decide)), if_neg (hne (by decide)),
    if_neg (not_or.2 ⟨hne (by decide), hne (by decide)⟩), if_neg (hne (by decide)),
    if_neg (hne (by decide)), if_neg hsingle, if_neg (hne (by decide)),
    if_neg (hlower (by decide)), if_neg (hlower (by decide))]

theorem Config.namespaceId?_congr {config : Config} {s t : Text} (h : Text.trim s = Text.trim t) :
    config.namespaceId? s = config.namespaceId? t := by
  unfold namespaceId?
  rw [h]

/-- Nothing but a namespace is made of the atom. Behind the colon that the
category namespace is written with, `=` would be the rest of a separator; any
other name must not be that of a class. -/
structure Config.Unmistakable (config : Config) (id : NamespaceId) (label : Text) : Prop where
  escaped : id = NamespaceId.category → label.head? ≠ some '='
  unclaimed : id ≠ NamespaceId.category → ¬ config.NamesClass label

namespace Reader

open State

variable {r : Reader} {id : NamespaceId} {label : Text}

/-- The name stands in front of the last colon, with a colon of its own or not. -/
theorem namespaceName?_plus (hlabel : ':' ∉ label) :
    namespaceName? (label ++ [':', '+']) = some label ∧
      namespaceName? (':' :: (label ++ [':', '+'])) = some label := by
  have hsplit : Text.splitOnce? ':' (label ++ [':', '+']) = some (label, ['+']) :=
    Text.splitOnce?_eq_some_iff.2 ⟨rfl, hlabel⟩
  have hplus : Text.trim ['+'] = ['+'] := by decide
  constructor
  · unfold namespaceName?
    split
    · next rest heq =>
      cases label with
      | nil =>
        obtain rfl := (List.cons.inj heq).2
        rfl
      | cons c label =>
        obtain rfl := (List.cons.inj heq).1
        exact absurd List.mem_cons_self hlabel
    · simp only [hsplit, if_pos hplus]
  · have hcontains : (label ++ [':', '+']).contains ':' = true := by simp
    unfold namespaceName?
    simp only [if_pos hcontains, hsplit, if_pos hplus]

/-- The name is found again in the atom, blanks apart. -/
theorem namespaceName?_content (id : NamespaceId) (hlabel : IsPlain label) :
    ∃ name, namespaceName? (Text.trim (namespaceContent id label)) = some name ∧
      Text.trim name = Text.trim label := by
  have hcolon : ':' ∉ label := hlabel.colon_not_mem
  rw [show namespaceContent id label = spelledName id label ++ [':', '+'] from rfl,
    Text.trim_plus, spelledName]
  by_cases hid : id = NamespaceId.category
  · rw [if_pos hid]
    exact ⟨label, (namespaceName?_plus hcolon).2, rfl⟩
  · rw [if_neg hid]
    have hfront : ':' ∉ Text.trimFront label :=
      fun hmem => hcolon ((List.dropWhile_suffix isBlank).subset hmem)
    refine ⟨Text.trimFront label, (namespaceName?_plus hfront).1, ?_⟩
    rw [Text.trim, Text.trim, Text.trimFront_trimFront]

/-- No delimiter starts in the atom. -/
theorem passes_content (hlabel : IsPlain label) (hne : id = NamespaceId.category → label ≠ [])
    (hescaped : id = NamespaceId.category → label.head? ≠ some '=') (k : Text) :
    StopSet.all.Passes k (namespaceContent id label) := by
  have hname : StopSet.all.Passes k (label ++ [':', '+']) :=
    StopSet.passes_append (StopSet.passes_of_isInert hlabel (.inr (passes_plus k).1))
      (passes_plus k)
  unfold namespaceContent
  split
  · next hid =>
    refine passes_colon (fun c hc => ?_) (List.append_ne_nil_of_right_ne_nil _ (by decide)) hname
    have hhead : label.head? = some c := by
      cases label with
      | nil => exact absurd rfl (hne hid)
      | cons d label => exact hc
    refine ⟨hlabel.sameFold_eq_false (by decide) c (List.mem_of_mem_head? hhead), ?_⟩
    cases hequal : sameFold '=' c with
    | false => rfl
    | true =>
      rw [eq_of_sameFold (by decide +kernel) hequal] at hhead
      exact absurd hhead (hescaped hid)
  · exact hname

/-- An atom of which nothing else can be made is the namespace that the name
stands for. -/
theorem readAtom_content (hr : r.Permissive) (hclasses : r.config.HasPlainClasses)
    (hlabel : IsPlain label) (hne : id = NamespaceId.category → label ≠ [])
    (h : r.config.Unmistakable id label) :
    (r.readAtom false ⟨namespaceContent id label ++ [']', ']'], [], []⟩).val =
      r.finishAtom 0 false true ((r.config.namespaceId? label).map (namespaceOf r.config))
        ⟨[']', ']'], ⟨[], [.atom], []⟩⟩ := by
  have hleading : firstDelimiter? (StopSet.all.leadingMarks r.config.labels)
      (namespaceContent id label ++ ([']', ']'] ++ [])) = none := by
    by_cases hid : id = NamespaceId.category
    · rw [namespaceContent, if_pos hid]
      exact Config.leadingMarks_of_colon hclasses _
    · rw [namespaceContent, if_neg hid, List.nil_append, List.append_assoc]
      exact Config.leadingMarks_of_plain hclasses hlabel (.inr ⟨rfl, h.unclaimed hid⟩) _
  obtain ⟨name, hname, htrim⟩ := namespaceName?_content id hlabel
  have hmember : articleMember r.config (Text.trim (namespaceContent id label)) =
      ((r.config.namespaceId? label).map (namespaceOf r.config), none) := by
    rw [articleMember, hname]
    dsimp only
    rw [Config.namespaceId?_congr htrim]
  have htext : Text.trim (namespaceContent id label) =
      Text.trimFront (spelledName id label) ++ [':', '+'] := Text.trim_plus _
  rw [readAtom_chunk (k := []) (.inl (by rw [htext]; exact Token.ofChunk_plus _))
    (passes_content hlabel hne h.escaped _) hleading (by rw [htext]; simp) rfl]
  simp only [hmember, reportAny, hr.combine]
  cases (r.config.namespaceId? label).map (namespaceOf r.config) <;> rfl

-- ============================================================ other readings

/-- An atom without a condition is reported. -/
theorem finishAtom_none_ne_nil (r : Reader) (restrict restricted : Bool) (c : Chunk) :
    (r.finishAtom 0 restrict restricted none c).state.diagnostics ≠ [] :=
  List.ne_nil_of_length_pos (length_lt_finishAtom_none r restrict restricted (Nat.zero_le _))

/-- Behind `=` the colon of the category namespace is a separator, and an atom
that begins with one has no condition. -/
theorem diagnostics_of_separator (r : Reader) (t : Text) :
    (r.readAtom false ⟨':' :: '=' :: t, [], []⟩).val.state.diagnostics ≠ [] := by
  have hmarks : firstDelimiter? StopSet.all.marks (Text.trimFront (':' :: '=' :: t)) =
      some ([':', '='], t) := rfl
  have hfirst : r.firstChunk ⟨':' :: '=' :: t, [], []⟩ = [':', '='] := by
    rw [firstChunk, StopSet.cut, StopSet.delimiter?_of_marks hmarks]
  rw [readAtom_empty (by rw [hfirst]; exact classKind?_eq_none _ (by decide))
    (by rw [hfirst, StartsEmpty]; decide)]
  exact finishAtom_none_ne_nil r _ _ _

/-- The name of a class in front of the colon begins the atom of that class, and
`+` is no member of it. If the two are told apart by their letters after all,
`+` stands behind a page. -/
theorem diagnostics_of_namesClass (hclasses : r.config.HasPlainClasses) (hlabel : IsPlain label)
    (hclass : r.config.NamesClass label) :
    (r.readAtom false ⟨label ++ [':', '+', ']', ']'], [], []⟩).val.state.diagnostics ≠ [] := by
  have hpasses : StopSet.all.Passes ([':', '+'] ++ [']', ']']) label :=
    StopSet.passes_of_isInert hlabel (.inr (passes_plus _).1)
  have hnone : firstDelimiter? StopSet.all.anywhere
      (Text.trimFront (label ++ [':', '+', ']', ']'])) = none := by
    obtain ⟨c, rest, rfl⟩ := List.exists_cons_of_ne_nil (hclass.ne_nil hclasses)
    exact hpasses.1
  have hcut : StopSet.all.cut r.config.labels (label ++ [':', '+', ']', ']']) =
      ⟨label ++ [':'], ['+', ']', ']']⟩ := by
    rw [StopSet.cut, StopSet.delimiter?_leading hnone,
      Config.leadingMarks_of_namesClass hclasses hlabel hclass]
  have hopened : r.opened ⟨label ++ [':', '+', ']', ']'], [], []⟩ =
      ⟨['+', ']', ']'], [.atom], []⟩ := by
    rw [opened, hcut]
    rfl
  have hinert : IsPlain ['+'] := List.forall_mem_singleton.2 (by decide +kernel)
  have hplus (stop : StopSet)
      (hleading : firstDelimiter? (stop.leadingMarks r.config.labels) ['+', ']', ']'] = none)
      (hclosing : (firstDelimiter? stop.anywhere [']', ']']).isSome = true) :
      stop.cut r.config.labels ['+', ']', ']'] = ⟨['+'], [']', ']']⟩ :=
    StopSet.cut_piece (List.cons_ne_nil _ _)
      (StopSet.passes_of_isInert hinert (.inl (by rintro c ⟨⟩; decide))) hleading hclosing
  have hnext : r.next ⟨['+', ']', ']'], [.atom], []⟩ = ⟨['+'], ⟨[']', ']'], [.atom], []⟩⟩ := by
    rw [next, Cut.next, hplus .all (Config.leadingMarks_of_plain hclasses hinert (.inl rfl) _) rfl]
    rfl
  have hnextAt (t : State) (ht : t.rest = ['+', ']', ']']) :
      (r.nextAt .atomContent t).text = ['+'] := by
    rw [nextAt, ht, hplus .atomContent rfl rfl]
    rfl
  cases hkind : classKind? r.config
      (Text.trim (r.firstChunk ⟨label ++ [':', '+', ']', ']'], [], []⟩)) with
  | some kind =>
    have hfollowing : r.next ⟨[']', ']'], [.atom], []⟩ = ⟨[']', ']'], ⟨[], [.atom], []⟩⟩ :=
      next_mark (by decide) rfl
    have hmember : r.memberAt kind none ⟨['+', ']', ']'], [.atom], []⟩ =
        ⟨none, ⟨[']', ']'], [.atom], []⟩⟩ := by
      rw [memberAt, hnext]
      rfl
    have hlast : ¬ (kind = .category ∧ Token.ofChunk [']', ']'] = .bars) :=
      fun h => absurd h.2 (by decide)
    rw [readAtom_class hkind, classAtom, hopened,
      readClass_last (by rw [hnext]; rfl) (by rw [hmember, hfollowing]; exact hlast), hmember]
    exact finishAtom_none_ne_nil r _ _ _
  | none =>
    by_cases hempty : StartsEmpty (Text.trim (r.firstChunk ⟨label ++ [':', '+', ']', ']'], [], []⟩))
    · rw [readAtom_empty hkind hempty]
      exact finishAtom_none_ne_nil r _ _ _
    · rw [readAtom_article hkind hempty (by rw [hopened, hnext]; decide), hopened]
      intro hquiet
      obtain ⟨-, -, hend⟩ := articleAtom_quiet
        (c := ⟨_, ⟨['+', ']', ']'], [.atom], []⟩⟩) rfl hquiet
      rw [hnextAt _ (by rw [rest_articleAt])] at hend
      cases hend

/-- If nothing is reported of the atom, nothing else was made of it. -/
theorem unmistakable_of_quiet (hclasses : r.config.HasPlainClasses) (hlabel : IsPlain label)
    (hquiet : (r.readAtom false
      ⟨namespaceContent id label ++ [']', ']'], [], []⟩).val.state.diagnostics = []) :
    r.config.Unmistakable id label where
  escaped hid hhead := by
    obtain ⟨rest, rfl⟩ := List.head?_eq_some_iff.1 hhead
    rw [namespaceContent, if_pos hid] at hquiet
    exact diagnostics_of_separator r _ hquiet
  unclaimed hid hclass := by
    rw [namespaceContent, if_neg hid, List.nil_append, List.append_assoc] at hquiet
    exact diagnostics_of_namesClass hclasses hlabel hclass hquiet

-- ========================================================== whole queries

theorem write_namespaceOf {config : Config} (hlabel : config.namespaceName? id = some label) :
    (namespaceOf config id).write =
      ['[', '['] ++ (namespaceContent id label ++ [']', ']']) := by
  have hwrite : (namespaceOf config id).write = writeNamespace id label := by
    rw [namespaceOf, hlabel]
    rfl
  rw [hwrite, writeNamespace_eq, List.append_assoc]

/-- **Which namespaces are read back.** On a wiki that permits everything and
restricts nothing, take a namespace with a name, and let no delimiter begin in
that name or in those of the two classes. What it is written as is read as this
namespace without a report just if its name stands for it, and nothing else can
be made of the atom. -/
theorem read_write_namespaceOf (config : Config) (hvalid : config.check = .ok config)
    (hdefaults : config.defaultNamespaces = none)
    (hall : ∀ feature, config.features.has feature = true) (id : NamespaceId) (label : Text)
    (hlabel : config.namespaceName? id = some label)
    (hplain : ∀ name ∈ [config.categoryLabel, config.conceptLabel, label], IsPlain name) :
    let parsed := (ofConfig config).read (namespaceOf config id).write
    (parsed.description = namespaceOf config id ∧ parsed.state.diagnostics = []) ↔
      config.namespaceId? label = some id ∧ config.Unmistakable id label := by
  intro parsed
  have hr : (ofConfig config).Permissive := permissive_ofConfig hdefaults hall
  have hclasses : config.HasPlainClasses :=
    .of_check hvalid (hplain _ (by simp)) (hplain _ (by simp))
  have hne : id = NamespaceId.category → label ≠ [] := by
    rintro rfl
    obtain rfl : config.categoryLabel = label := Option.some.inj hlabel
    exact hclasses.category.1
  have hlabelPlain : IsPlain label := hplain label (by simp)
  have hatom (h : config.Unmistakable id label) :
      ((ofConfig config).readAtom false
        ⟨namespaceContent id label ++ [']', ']'], [], []⟩).val =
          (ofConfig config).finishAtom 0 false true
            ((config.namespaceId? label).map (namespaceOf config))
            ⟨[']', ']'], ⟨[], [.atom], []⟩⟩ :=
    readAtom_content hr hclasses hlabelPlain hne h
  have hparsed : parsed =
      (ofConfig config).read (['[', '['] ++ (namespaceContent id label ++ [']', ']'])) :=
    congrArg (ofConfig config).read (write_namespaceOf hlabel)
  have hread (other : NamespaceId) (hid : config.namespaceId? label = some other)
      (h : config.Unmistakable id label) :
      parsed = ⟨namespaceOf config other, ⟨[], [], []⟩⟩ := by
    have hmeans := hatom h
    rw [hid] at hmeans
    rw [hparsed]
    exact read_atom hr (hmeans.trans (hr.finishAtom 0 false true _ _))
  constructor
  · rintro ⟨hmeans, hquiet⟩
    rw [hparsed] at hquiet
    have hquietAtom := readAtom_quiet hr hquiet
    have h := unmistakable_of_quiet hclasses hlabelPlain hquietAtom
    refine ⟨?_, h⟩
    cases hid : config.namespaceId? label with
    | none =>
      rw [hatom h, hid] at hquietAtom
      exact absurd hquietAtom (finishAtom_none_ne_nil _ _ _ _)
    | some other =>
      rw [hread other hid h] at hmeans
      exact congrArg some (Description.inNamespace.inj hmeans).1
  · rintro ⟨hid, h⟩
    rw [hread id hid h]
    exact ⟨rfl, rfl⟩

/-- A namespace of the wiki's own, beside a category namespace with a name of
the wiki's own. -/
theorem read_write_namespaceOf_configured :
    let config : Config :=
      { categoryLabel := "Kategorie".toList, namespaces := [("Recipe".toList, 3000)] }
    let parsed := (ofConfig config).read (namespaceOf config 3000).write
    (config.check = .ok config ∧ config.defaultNamespaces = none ∧
        (∀ feature, config.features.has feature = true) ∧
        config.namespaceName? 3000 = some "Recipe".toList ∧
        ∀ name ∈ [config.categoryLabel, config.conceptLabel, "Recipe".toList], IsPlain name) ∧
      parsed.description = .inNamespace 3000 "Recipe".toList [] ∧
      parsed.state.diagnostics = [] := by
  intro config parsed
  have hplain : ∀ name ∈ [config.categoryLabel, config.conceptLabel, "Recipe".toList],
      IsPlain name := by
    have hall : [config.categoryLabel, config.conceptLabel, "Recipe".toList].all
        (fun name => name.all isInert) = true := by
      decide +kernel
    exact fun name hname => List.all_eq_true.1 (List.all_eq_true.1 hall name hname)
  have hclass : ¬ config.NamesClass "Recipe".toList := by
    have hall : config.classNames.all
        (fun name => name.map foldCode != "Recipe".toList.map foldCode) = true := by
      decide +kernel
    rintro ⟨name, hname, hfold⟩
    have hne := List.all_eq_true.1 hall name hname
    rw [hfold, bne_self_eq_false] at hne
    cases hne
  have hunmistakable : config.Unmistakable 3000 "Recipe".toList :=
    ⟨fun hid => absurd hid (by decide), fun _ => hclass⟩
  exact ⟨⟨rfl, rfl, FeatureSet.has_all, rfl, hplain⟩,
    (read_write_namespaceOf config rfl rfl FeatureSet.has_all 3000 "Recipe".toList rfl hplain).2
      ⟨by decide +kernel, hunmistakable⟩⟩

/-- Without a colon in front of it, the atom of the concept namespace is that of
a concept without a name. Behind a colon it would be read as the namespace. -/
theorem concept_namespace_is_not_read_back :
    let r := ofConfig {}
    let d := namespaceOf {} NamespaceId.concept
    let escaped := "[[:Concept:+]]".toList
    Config.namespaceName? {} NamespaceId.concept = some conceptName ∧
      d.write = "[[Concept:+]]".toList ∧
      (r.read d.write).description = .thing [] ∧
      (r.read d.write).state.diagnostics = [.badAtom] ∧
      (r.read escaped).description = d ∧ (r.read escaped).state.diagnostics = [] := by
  intro r d escaped
  have hwrite : d.write = "[[Concept:+]]".toList := by decide +kernel
  have hlost : (r.read "[[Concept:+]]".toList).description = .thing [] ∧
      (r.read "[[Concept:+]]".toList).state.diagnostics = [.badAtom] := by
    unfold read
    rw [readSubquery_ne_nil (by decide +kernel), readAlternatives_openAtom (by decide +kernel),
      readAtom_class (by decide +kernel : _ = some .concept),
      readAlternatives_finish (by decide +kernel)]
    decide +kernel
  have hescaped : (r.read escaped).description = d ∧ (r.read escaped).state.diagnostics = [] := by
    unfold read
    rw [readSubquery_ne_nil (by decide +kernel), readAlternatives_openAtom (by decide +kernel),
      readAtom_article (by decide +kernel) (by decide +kernel) (by decide +kernel),
      readAlternatives_finish (by decide +kernel)]
    decide +kernel
  rw [hwrite]
  exact ⟨rfl, rfl, hlost.1, hlost.2, hescaped.1, hescaped.2⟩

/-- **The concept namespace is never read back**, whatever the two classes are
called. -/
theorem diagnostics_write_concept (config : Config) (hvalid : config.check = .ok config)
    (hdefaults : config.defaultNamespaces = none)
    (hall : ∀ feature, config.features.has feature = true)
    (hplain : IsPlain config.categoryLabel ∧ IsPlain config.conceptLabel) :
    ((ofConfig config).read (namespaceOf config NamespaceId.concept).write).state.diagnostics ≠
      [] := by
  have hclasses : config.HasPlainClasses := .of_check hvalid hplain.1 hplain.2
  have hclass : config.NamesClass config.conceptLabel :=
    ⟨config.conceptLabel, by simp [Config.classNames], rfl⟩
  have hlabel : config.namespaceName? NamespaceId.concept = some config.conceptLabel := rfl
  have hwrite : (namespaceOf config NamespaceId.concept).write =
      ['[', '['] ++ (config.conceptLabel ++ [':', '+', ']', ']']) := by
    rw [write_namespaceOf hlabel, namespaceContent,
      if_neg (by decide), List.nil_append, List.append_assoc]
    rfl
  intro hquiet
  rw [hwrite] at hquiet
  exact diagnostics_of_namesClass (r := ofConfig config) hclasses hplain.2 hclass
    (readAtom_quiet (permissive_ofConfig hdefaults hall) hquiet)

end Reader

end InlineQuery
