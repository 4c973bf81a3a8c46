/-
Names of classes that are cut off and not recognised.

An atom is a category list or a concept if a name of that class stands in front of
it. The name is looked for twice: text is cut behind it, with case folded, and the
chunk is compared with the names of the classes again, in lower case and with
spaces for underscores. The second comparison does not always find what the first
one did. A name with an underscore in it is cut off and is then compared without,
so it is never found (`underscored_label_is_not_recognised`), and the same goes for
a name with blanks at its ends. Some characters are folded together and stay apart
in lower case: the long s and `s`, or the two small sigmas.

# When they agree

For a name without underscores and blanks at its ends, a spelling is recognised
exactly if it is, in lower case, one of the names (`isSome_classKind?_iff`). That
is every spelling if lower case keeps together what folding does (`IsRegular`). The
canonical names are of that kind, so they are recognised however they are spelled,
on every wiki (`readAtom_behind_className`).
-/
import InlineQuery.Proofs.Reading.Classification
import InlineQuery.Proofs.Reading.Namespaces

namespace InlineQuery

variable {name w : Text} {c d : Char}

-- ============================================================== lower case

/-- What could be folded like the character: its representative, and one character
of each run. -/
def foldMates (c : Char) : List Char :=
  Char.ofNat (foldCode c) :: foldRuns.filterMap fun run =>
    let code := ((foldCode c : Int) - run.offset).toNat
    if run.covers code then some (Char.ofNat code) else none

theorem mem_foldMates (h : sameFold c d = true) : d ∈ foldMates c := by
  have hfold : foldCode d = foldCode c := (eq_of_beq h).symm
  rcases CaseRun.mapCode_cases foldRuns d.toNat with hself | ⟨run, hrun, hcovers, himage⟩
  · have hcode : d.toNat = foldCode c := hself.symm.trans hfold
    rw [foldMates, ← hcode, Char.ofNat_toNat]
    exact List.mem_cons_self
  · have hnonneg : ∀ run ∈ foldRuns, 0 ≤ run.first + run.offset := by decide +kernel
    have hrange := hnonneg run hrun
    obtain ⟨hfirst, -, -⟩ := CaseRun.covers_iff.1 hcovers
    have himage : (d.toNat + run.offset).toNat = foldCode c := himage.symm.trans hfold
    have hcode : ((foldCode c : Int) - run.offset).toNat = d.toNat := by omega
    refine List.mem_cons_of_mem _ (List.mem_filterMap.2 ⟨run, hrun, ?_⟩)
    simp only [hcode, if_pos hcovers, Char.ofNat_toNat]

/-- Whatever is folded like the character has the same lower case, in all
places. -/
def LowersAlike (c : Char) : Prop :=
  ∀ d, sameFold c d = true → d ≠ 'Σ' ∧ lowerCase d = lowerCase c

theorem lowersAlike_iff :
    LowersAlike c ↔
      ∀ d ∈ foldMates c, sameFold c d = true → d ≠ 'Σ' ∧ lowerCase d = lowerCase c :=
  ⟨fun h d _ => h d, fun h d hsame => h d (mem_foldMates hsame) hsame⟩

instance (c : Char) : Decidable (LowersAlike c) :=
  @decidable_of_iff' _ _ lowersAlike_iff (List.decidableBAll _ _)

/-- The Kelvin sign becomes `k` in lower case, the long s remains what it is. -/
example : LowersAlike 'k' ∧ ¬ LowersAlike 's' := by decide +kernel

namespace Text

theorem trim_concat (hc : isBlank c = false) (t : Text) : trim (t ++ [c]) = trimFront t ++ [c] := by
  have hfront : trimFront (t ++ [c]) = trimFront t ++ [c] := by
    rw [trimFront, trimFront, List.dropWhile_append]
    split
    · next hempty =>
      rw [List.isEmpty_iff.1 hempty, List.nil_append,
        List.dropWhile_cons_of_neg (by rw [hc]; exact Bool.false_ne_true)]
    · rfl
  rw [trim, hfront]
  exact trimBack_concat hc

/-- Without capital sigmas, the characters of a text are mapped one by one. -/
theorem lower_eq_flatMap {t : Text} (h : 'Σ' ∉ t) : lower t = t.flatMap lowerCase := by
  have hafter (before : Text) : lowerAfter before t = t.flatMap lowerCase := by
    induction t generalizing before with
    | nil => rfl
    | cons c t ih =>
      have hc : c ≠ 'Σ' := fun heq => h (heq ▸ List.mem_cons_self)
      have ht := ih (fun hmem => h (List.mem_cons_of_mem c hmem)) (c :: before)
      simp only [lowerAfter, if_neg hc, ht, List.flatMap_cons]
  exact hafter []

/-- The spellings of a text, letter case apart, have one lower case if those of its
characters do. -/
theorem lower_of_map_foldCode (hname : ∀ c ∈ name, LowersAlike c)
    (h : name.map foldCode = w.map foldCode) : lower w = lower name := by
  have hmapped : ('Σ' ∉ w ∧ 'Σ' ∉ name) ∧ w.flatMap lowerCase = name.flatMap lowerCase := by
    induction name generalizing w with
    | nil =>
      obtain rfl := List.map_eq_nil_iff.1 h.symm
      exact ⟨⟨List.not_mem_nil, List.not_mem_nil⟩, rfl⟩
    | cons c name ih =>
      cases w with
      | nil => cases h
      | cons d w =>
        obtain ⟨hhead, htail⟩ := List.cons.inj h
        obtain ⟨⟨hw, hrest⟩, hflat⟩ := ih (fun e he => hname e (List.mem_cons_of_mem c he)) htail
        have hc := hname c List.mem_cons_self
        obtain ⟨hd, hlower⟩ := hc d (beq_iff_eq.2 hhead)
        have hself := (hc c (sameFold_refl c)).1
        refine ⟨⟨?_, ?_⟩, ?_⟩
        · exact List.not_mem_cons_of_ne_of_not_mem hd.symm hw
        · exact List.not_mem_cons_of_ne_of_not_mem hself.symm hrest
        · rw [List.flatMap_cons, List.flatMap_cons, hlower, hflat]
  rw [lower_eq_flatMap hmapped.1.1, lower_eq_flatMap hmapped.1.2, hmapped.2]

/-- What a text is up to the case of ASCII letters, it is with its case folded. -/
theorem map_foldCode_of_eqIgnoreAsciiCase (hname : name.all isAsciiFold = true)
    (h : eqIgnoreAsciiCase w name = true) : name.map foldCode = w.map foldCode := by
  induction name generalizing w with
  | nil =>
    obtain rfl := List.map_eq_nil_iff.1 (eq_of_beq h)
    rfl
  | cons c name ih =>
    cases w with
    | nil => cases h
    | cons d w =>
      obtain ⟨hhead, htail⟩ := List.cons.inj (eq_of_beq h)
      obtain ⟨hc, hname⟩ := Bool.and_eq_true_iff.1 hname
      have hsame : sameFold c d = true := by
        rw [sameFold_of_isAsciiFold hc]
        exact beq_iff_eq.2 hhead
      rw [List.map_cons, List.map_cons, eq_of_beq hsame, ih hname (beq_iff_eq.2 htail)]

end Text

-- ==================================================================== blanks

/-- Blanks have no case. -/
theorem isCaseless_of_isBlank (h : isBlank c = true) : isCaseless c = true := by
  have hall : ∀ range ∈ blankRanges, ∀ i < range.2 - range.1 + 1,
      isCaseless (Char.ofNat (range.1 + i)) = true := by
    decide +kernel
  obtain ⟨range, hrange, hc⟩ := List.any_eq_true.1 h
  rw [Bool.and_eq_true, decide_eq_true_eq, decide_eq_true_eq] at hc
  have hblank := hall range hrange (c.toNat - range.1) (by omega)
  rwa [show range.1 + (c.toNat - range.1) = c.toNat by omega, Char.ofNat_toNat] at hblank

theorem isBlank_of_foldCode (h : foldCode c = foldCode d) : isBlank c = isBlank d := by
  rw [Bool.eq_iff_iff]
  constructor
  · intro hblank
    rwa [eq_of_sameFold (isCaseless_of_isBlank hblank) (beq_iff_eq.2 h)]
  · intro hblank
    rwa [eq_of_sameFold (isCaseless_of_isBlank hblank) (beq_iff_eq.2 h.symm)]

/-- The name is written without underscores, and without blanks at its ends. -/
structure IsTidy (name : Text) : Prop where
  underscore : '_' ∉ name
  first : ∀ c ∈ name.head?, isBlank c = false
  last : ∀ c ∈ name.getLast?, isBlank c = false

namespace IsTidy

/-- Its other spellings are written so, too. -/
theorem of_map_foldCode (h : IsTidy name) (hfold : name.map foldCode = w.map foldCode) :
    IsTidy w := by
  have hend {e : Option Char} {e' : Option Char} (hsame : e.map foldCode = e'.map foldCode)
      (hsolid : ∀ c ∈ e, isBlank c = false) : ∀ d ∈ e', isBlank d = false := by
    intro d hd
    rw [Option.mem_def.1 hd, Option.map_some] at hsame
    obtain ⟨c, hc, hcode⟩ := Option.map_eq_some_iff.1 hsame
    rw [← isBlank_of_foldCode hcode]
    exact hsolid c hc
  refine ⟨fun hmem => ?_, hend ?_ h.first, hend ?_ h.last⟩
  · have hcode : foldCode '_' ∈ name.map foldCode := by
      rw [hfold]
      exact List.mem_map_of_mem hmem
    obtain ⟨c, hc, hsame⟩ := List.mem_map.1 hcode
    have hself : c = '_' := eq_of_sameFold (by decide +kernel) (beq_iff_eq.2 hsame.symm)
    exact h.underscore (hself ▸ hc)
  · rw [← List.head?_map, hfold, List.head?_map]
  · rw [← List.getLast?_map, hfold, List.getLast?_map]

/-- Such a name is compared as it is written. -/
theorem compared (h : IsTidy w) : Text.replace '_' ' ' (Text.trim w) = w := by
  rw [Text.trim_eq_self h.first h.last, Text.replace]
  refine (List.map_congr_left fun c hc => ?_).trans (List.map_id w)
  have hne : c ≠ '_' := by
    rintro rfl
    exact h.underscore hc
  exact if_neg hne

end IsTidy

/-- The name is tidy, and lower case tells no more spellings of it apart than folding
does. -/
structure IsRegular (name : Text) : Prop where
  tidy : IsTidy name
  alike : ∀ c ∈ name, LowersAlike c

theorem isRegular_iff : IsRegular name ↔
    ('_' ∉ name ∧ name.head?.all (!isBlank ·) = true ∧ name.getLast?.all (!isBlank ·) = true) ∧
      name.all (decide <| LowersAlike ·) = true := by
  simp only [Option.all_eq_true, List.all_eq_true, Bool.not_eq_true', decide_eq_true_eq]
  exact ⟨fun ⟨⟨hunderscore, hfirst, hlast⟩, halike⟩ => ⟨⟨hunderscore, hfirst, hlast⟩, halike⟩,
    fun ⟨⟨hunderscore, hfirst, hlast⟩, halike⟩ => ⟨⟨hunderscore, hfirst, hlast⟩, halike⟩⟩

instance (name : Text) : Decidable (IsRegular name) := decidable_of_iff' _ isRegular_iff

-- ============================================================== recognition

namespace Reader

variable {config : Config}

theorem isRegular_canonical : ∀ name ∈ [categoryName, conceptName], IsRegular name := by
  decide +kernel

/-- A label that is a spelling of the canonical name is not compared twice. -/
theorem any_spellings (label canonical : Text)
    (hcanonical : canonical ∈ [categoryName, conceptName]) (t : Text) :
    ((Config.spellings label canonical).any fun name => Text.lower name == t) = true ↔
      Text.lower label = t ∨ Text.lower canonical = t := by
  have hascii : ∀ name ∈ [categoryName, conceptName], name.all isAsciiFold = true := by
    decide +kernel
  unfold Config.spellings
  split
  · next hsame =>
    have hlower : Text.lower label = Text.lower canonical :=
      Text.lower_of_map_foldCode (isRegular_canonical canonical hcanonical).alike
        (Text.map_foldCode_of_eqIgnoreAsciiCase (hascii canonical hcanonical) hsame)
    rw [List.any_cons, List.any_nil, Bool.or_false, beq_iff_eq, hlower, or_self]
  · rw [List.any_cons, List.any_cons, List.any_nil, Bool.or_false, Bool.or_eq_true, beq_iff_eq,
      beq_iff_eq]

/-- What stands in front of the colon is compared with the names in lower case,
without blanks at its ends and with spaces for underscores. -/
theorem isSome_classKind?_iff :
    (classKind? config (Text.trim (w ++ [':']))).isSome = true ↔
      ∃ name ∈ config.classNames, Text.lower name =
        Text.lower (Text.replace '_' ' ' (Text.trim w)) := by
  have hstrip : Text.stripLast? ':' (Text.trim (w ++ [':'])) = some (Text.trimFront w) :=
    Text.stripLast?_eq_some_iff.2 (Text.trim_concat (by decide) w)
  have htrim : Text.trim (Text.trimFront w) = Text.trim w := by
    rw [Text.trim, Text.trim, Text.trimFront_trimFront]
  rw [classKind?, hstrip]
  simp only [htrim]
  generalize Text.lower (Text.replace '_' ' ' (Text.trim w)) = t
  have hcategory := any_spellings config.categoryLabel categoryName (by decide) t
  have hconcept := any_spellings config.conceptLabel conceptName (by decide) t
  have hnames : (∃ name ∈ config.classNames, Text.lower name = t) ↔
      (Text.lower config.categoryLabel = t ∨ Text.lower categoryName = t) ∨
        (Text.lower config.conceptLabel = t ∨ Text.lower conceptName = t) := by
    simp only [Config.classNames, List.mem_cons, List.not_mem_nil, or_false, exists_eq_or_imp,
      exists_eq_left, or_assoc]
  rw [hnames, ← hcategory, ← hconcept]
  unfold Config.categoryNames Config.conceptNames
  split
  · next hfound => exact iff_of_true rfl (.inl hfound)
  · next hmissing =>
    split
    · next hfound => exact iff_of_true rfl (.inr hfound)
    · next hmissing' =>
      exact iff_of_false Bool.false_ne_true fun h => h.elim hmissing hmissing'

end Reader

-- ================================================================ both ways

namespace StopSet

variable {labels : ClassLabels} {t : Text} {parts : Text × Text}

/-- What a cut takes off a text as the name of a class, and what follows it: the
delimiters that are looked for before the names do not stand at the front. Behind
blanks these are all the others. -/
def className? (labels : ClassLabels) (t : Text) : Option (Text × Text) :=
  let earlier := if Text.trimFront t = t then StopSet.all.marks else StopSet.all.anywhere
  match firstDelimiter? earlier (Text.trimFront t) with
  | some _ => none
  | none => firstDelimiter? (StopSet.all.leadingMarks labels) t

/-- That is where the text is cut. -/
theorem cut_of_className? (h : className? labels t = some parts) :
    StopSet.all.cut labels t = ⟨parts.1, parts.2⟩ := by
  simp only [className?] at h
  split at h
  · cases h
  · next hearlier =>
    rw [cut]
    have hfound : StopSet.all.delimiter? labels true t = some parts := by
      by_cases hself : Text.trimFront t = t
      · rw [if_pos hself, hself] at hearlier
        rw [delimiter?_true labels .all hself, firstDelimiter?_append, firstDelimiter?_append,
          hearlier, h]
        rfl
      · rw [if_neg hself] at hearlier
        rw [delimiter?_leading hearlier, h]
    rw [hfound]

end StopSet

namespace Reader

open StopSet

variable {r : Reader} {s : State} {parts : Text × Text}

/-- **A name of a class that is cut off is recognised if it is well written.** Where
an atom begins with a chunk that is cut off as the name of a class, the chunk is a
spelling of such a name, with a colon. If it is a canonical name, or one without
underscores and blanks at its ends whose lower case tells no more characters apart
than folding does, the atom is that of a category list or a concept. If lower case
does tell more apart, it is just if the spelling has the lower case of a name. -/
theorem readAtom_behind_className (h : className? r.config.labels s.rest = some parts) :
    ∃ w, parts.1 = w ++ [':'] ∧ r.config.NamesClass w ∧
      ∀ name ∈ r.config.classNames, name.map foldCode = w.map foldCode →
        (name ∈ [categoryName, conceptName] ∨ IsRegular name →
          ∃ kind, classKind? r.config (Text.trim parts.1) = some kind ∧
            ∀ restrict, (r.readAtom restrict s).val =
              r.classAtom kind s.diagnostics.length restrict
                { s.enter .atom with rest := parts.2 }) ∧
        (IsTidy name → ((classKind? r.config (Text.trim parts.1)).isSome = true ↔
          ∃ other ∈ r.config.classNames, Text.lower other = Text.lower w)) := by
  have hcut := cut_of_className? h
  have hleading : firstDelimiter? (StopSet.all.leadingMarks r.config.labels) s.rest =
      some parts := by
    simp only [className?] at h
    split at h
    · cases h
    · exact h
  obtain ⟨lead, hlead, hmatch⟩ := List.exists_of_findSome?_eq_some hleading
  obtain ⟨name, hname, rfl⟩ := List.mem_map.1 hlead
  obtain ⟨w, hw, hfold⟩ := exists_of_matchFront?_name hmatch
  have hrecognised {name : Text} (htidy : IsTidy name)
      (hfold : name.map foldCode = w.map foldCode) :
      (classKind? r.config (Text.trim parts.1)).isSome = true ↔
        ∃ other ∈ r.config.classNames, Text.lower other = Text.lower w := by
    rw [hw, isSome_classKind?_iff, (htidy.of_map_foldCode hfold).compared]
  refine ⟨w, hw, ⟨name, hname, hfold.symm⟩, fun name hname hfold =>
    ⟨fun hwritten => ?_, fun htidy => hrecognised htidy hfold⟩⟩
  have hregular : IsRegular name := hwritten.elim (isRegular_canonical name) id
  have hsome := (hrecognised hregular.tidy hfold).2
    ⟨name, hname, (Text.lower_of_map_foldCode hregular.alike hfold).symm⟩
  obtain ⟨kind, hkind⟩ := Option.isSome_iff_exists.1 hsome
  refine ⟨kind, hkind, fun restrict => ?_⟩
  have hfirst : r.firstChunk s = parts.1 := by rw [firstChunk, hcut]
  have hopened : r.opened s = { s.enter .atom with rest := parts.2 } := by rw [opened, hcut]
  rw [readAtom_class (hfirst ▸ hkind), hopened]

/-- A German name of categories, in capitals. -/
theorem readAtom_behind_kategorie :
    let config : Config := { categoryLabel := "Kategorie".toList }
    let r := ofConfig config
    let s := State.start "KATEGORIE:Stadt]]".toList
    className? config.labels s.rest = some ("KATEGORIE:".toList, "Stadt]]".toList) ∧
      ∃ kind, classKind? config "KATEGORIE:".toList = some kind ∧
        (r.readAtom false s).val = r.classAtom kind 0 false ⟨"Stadt]]".toList, [.atom], []⟩ := by
  intro config r s
  have hname : className? config.labels s.rest =
      some ("KATEGORIE:".toList, "Stadt]]".toList) := by
    decide +kernel
  obtain ⟨w, hw, -, hnames⟩ := readAtom_behind_className (r := r) (s := s) hname
  obtain rfl : w = "KATEGORIE".toList := (List.append_cancel_right hw).symm
  have hregular : IsRegular "Kategorie".toList := by decide +kernel
  obtain ⟨kind, hkind, hatom⟩ :=
    (hnames "Kategorie".toList List.mem_cons_self (by decide +kernel)).1 (.inr hregular)
  exact ⟨hname, kind, hkind, hatom false⟩

/-- The label of the categories is written with an underscore. The query is cut
behind it, and yet no category is read: a page with the name of the namespace is,
and the name of the category is reported. -/
theorem underscored_label_is_not_recognised :
    let config : Config := { categoryLabel := "My_Category".toList }
    let r := ofConfig config
    let s := State.start "My_Category:City]]".toList
    config.check = .ok config ∧
      className? config.labels s.rest = some ("My_Category:".toList, "City]]".toList) ∧
      classKind? config (Text.trim "My_Category:".toList) = none ∧
      (r.readAtom false s).val.state.diagnostics = [.misplacedSymbol "City".toList] := by
  intro config r s
  refine ⟨by rfl, by decide +kernel, by decide +kernel, ?_⟩
  rw [readAtom_article (by decide +kernel) (by decide +kernel) (by decide +kernel),
    articleAtom_last (by decide +kernel) (by decide +kernel)]
  decide +kernel

end Reader

end InlineQuery
