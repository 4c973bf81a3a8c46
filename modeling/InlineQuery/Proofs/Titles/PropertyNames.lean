/-
Which names of properties are read back.

The minus sign of an inverse property is taken off a name before the name is
normalized, and normalizing takes away the underscores and blanks in front of a
name. So a label may begin with a minus sign that did not stand in front: written,
it is taken for the sign of an inverse property. Every other name is read back,
and inverse properties always are, since theirs is the first of two signs
(`read_back_iff`).

# What a name begins with

A normalized title begins with the first character of the text that is neither a
blank nor an underscore, in upper case if that is asked for
(`head?_spaceTitle`), and only a minus sign becomes one in upper case.
-/
import InlineQuery.Proofs.Titles.Normalization
import InlineQuery.Property

namespace InlineQuery

variable {t : Text}

-- ============================================================ the front of titles

/-- The character is left out in front of a title. -/
def isGap (c : Char) : Bool := isBlank c || c == '_'

theorem head?_join_words (t : Text) :
    (Text.join [' '] (Text.words t)).head? = (Text.trimFront t).head? := by
  have hcons (c : Char) (w : Text) (ws : List Text) :
      (Text.join [' '] ((c :: w) :: ws)).head? = some c := by
    cases ws <;> rfl
  induction t with
  | nil => rfl
  | cons c t ih =>
    unfold Text.words
    by_cases hc : isBlank c = true
    · rw [if_pos hc, ih, Text.trimFront, Text.trimFront, List.dropWhile_cons_of_pos hc]
    · rw [if_neg hc, Text.trimFront, List.dropWhile_cons_of_neg hc]
      split
      · split <;> exact hcons c _ _
      · exact hcons c _ _

/-- A spaced title begins with what stands behind the gap in front of it. -/
theorem head?_spaceTitle (t : Text) : (spaceTitle t).head? = (t.dropWhile isGap).head? := by
  rw [spaceTitle, head?_join_words, Text.trimFront, Text.replace, List.dropWhile_map]
  have hgap : (isBlank ∘ fun c => if c = '_' then ' ' else c) = isGap := by
    funext c
    by_cases hc : c = '_'
    · rw [hc]
      rfl
    · simp [isGap, hc]
  rw [hgap, List.head?_map]
  cases hhead : (t.dropWhile isGap).head? with
  | none => rfl
  | some c =>
    have hfirst := List.head?_dropWhile_not isGap t
    rw [hhead] at hfirst
    have hc : c ≠ '_' := by
      rintro rfl
      cases hfirst
    rw [Option.map_some, if_neg hc]

theorem head?_dropWhile_gap_eq_some_iff {d : Char} (hd : isGap d = false) :
    (t.dropWhile isGap).head? = some d ↔
      ∃ gap rest, gap.all isGap = true ∧ t = gap ++ d :: rest := by
  constructor
  · intro hhead
    obtain ⟨rest, hrest⟩ := List.head?_eq_some_iff.1 hhead
    exact ⟨t.takeWhile isGap, rest, List.all_takeWhile, by
      rw [← hrest, List.takeWhile_append_dropWhile]⟩
  · rintro ⟨gap, rest, hgap, rfl⟩
    rw [List.dropWhile_append_of_pos (List.all_eq_true.1 hgap),
      List.dropWhile_cons_of_neg (Bool.eq_false_iff.1 hd)]
    rfl

/-- Only a minus sign becomes one at the front of a title. -/
theorem head?_capitalize_eq_minus_iff : (capitalize t).head? = some '-' ↔ t.head? = some '-' := by
  cases t with
  | nil => exact Iff.rfl
  | cons c t =>
    have huncased : isUncased '-' = true := by decide +kernel
    obtain ⟨d, ds, hupper, -⟩ := exists_upperCase c
    rw [capitalize, hupper, List.cons_append, List.head?_cons, List.head?_cons, Option.some.injEq,
      Option.some.injEq]
    constructor
    · rintro rfl
      exact (mem_upperCase_iff huncased).1 (hupper ▸ List.mem_cons_self)
    · rintro rfl
      rw [show upperCase '-' = ['-'] by decide +kernel] at hupper
      exact (List.cons.inj hupper).1.symm

/-- A title begins with a minus sign if there is one in the text behind nothing but
blanks and underscores. -/
theorem head?_normalizeTitle?_eq_minus_iff {capital : Bool} {s : Text}
    (h : normalizeTitle? capital t = some s) :
    s.head? = some '-' ↔ ∃ gap rest, gap.all isGap = true ∧ t = gap ++ '-' :: rest := by
  rw [← head?_dropWhile_gap_eq_some_iff (by decide), ← head?_spaceTitle]
  rw [normalizeTitle?] at h
  split at h
  · cases h
  · rw [← Option.some.inj h]
    split
    · exact head?_capitalize_eq_minus_iff
    · exact Iff.rfl

-- =================================================================== properties

namespace Property

variable {capital : Bool} {property : Property}

/-- What of a text names a property: all of it, or what is behind a minus sign. -/
theorem read?_eq_some_iff :
    read? capital t = some property ↔ ∃ name,
      normalizeTitle? capital name = some property.label ∧
        (if property.inverse then Text.trim t = '-' :: name
          else Text.trim t = name ∧ name.head? ≠ some '-') := by
  obtain ⟨label, inverse⟩ := property
  unfold read?
  split
  · next rest htrim =>
    rw [Option.map_eq_some_iff]
    constructor
    · rintro ⟨label, hlabel, heq⟩
      cases heq
      exact ⟨rest, hlabel, htrim⟩
    · rintro ⟨name, hname, hwhole⟩
      cases inverse with
      | true =>
        rw [if_pos rfl, htrim] at hwhole
        exact ⟨label, (List.cons.inj hwhole).2 ▸ hname, rfl⟩
      | false =>
        rw [if_neg Bool.false_ne_true, htrim] at hwhole
        exact absurd (hwhole.1 ▸ rfl) hwhole.2
  · next hplain =>
    rw [Option.map_eq_some_iff]
    constructor
    · rintro ⟨label, hlabel, heq⟩
      cases heq
      refine ⟨Text.trim t, hlabel, rfl, fun hhead => ?_⟩
      obtain ⟨rest, hrest⟩ := List.head?_eq_some_iff.1 hhead
      exact hplain rest hrest
    · rintro ⟨name, hname, hwhole⟩
      cases inverse with
      | true => exact absurd hwhole (hplain name)
      | false => exact ⟨label, hwhole.1 ▸ hname, rfl⟩

/-- Nothing is trimmed off a name that is written. -/
theorem trim_write_of_isTitle (h : IsTitle property.label) :
    Text.trim property.write = property.write := by
  obtain ⟨hfirst, hlast⟩ := h.isBlank_ends
  unfold write
  split
  · refine Text.trim_eq_self (fun c hc => ?_) fun c hc => ?_
    · cases hc
      decide
    · rw [List.getLast?_cons_of_ne_nil h.ne_nil] at hc
      exact hlast c hc
  · exact Text.trim_eq_self hfirst hlast

/-- A written property is read back if no label is mistaken for an inverse one. -/
theorem read?_write_eq_self_iff (h : normalizeTitle? capital property.label = some property.label) :
    read? capital property.write = some property ↔
      (property.inverse = false → property.label.head? ≠ some '-') := by
  rw [read?_eq_some_iff, trim_write_of_isTitle (isTitle_of_normalizeTitle? h)]
  obtain ⟨label, inverse⟩ := property
  cases inverse with
  | true => exact iff_of_true ⟨label, h, rfl⟩ fun heq => absurd heq Bool.noConfusion
  | false =>
    constructor
    · rintro ⟨name, -, heq, hhead⟩ -
      cases heq
      exact hhead
    · intro hhead
      exact ⟨label, h, rfl, hhead rfl⟩

/-- A label that is not inverse begins with a minus sign just if the sign stands in
the text behind something that is left out in front of a title. -/
theorem head?_label_eq_minus_iff (h : read? capital t = some property) :
    property.inverse = false ∧ property.label.head? = some '-' ↔
      ∃ gap rest, gap ≠ [] ∧ gap.all isGap = true ∧ Text.trim t = gap ++ '-' :: rest := by
  obtain ⟨name, hname, hwhole⟩ := read?_eq_some_iff.1 h
  rw [head?_normalizeTitle?_eq_minus_iff hname]
  cases hinverse : property.inverse with
  | true =>
    rw [if_pos hinverse] at hwhole
    refine iff_of_false (fun hplain => Bool.noConfusion hplain.1) ?_
    rintro ⟨gap, rest, hne, hgap, htrim⟩
    obtain ⟨c, gap, rfl⟩ := List.exists_cons_of_ne_nil hne
    rw [htrim] at hwhole
    -- the first character would be left out, and is the sign
    have hminus : isGap '-' = true :=
      (List.cons.inj hwhole).1 ▸ List.all_eq_true.1 hgap c List.mem_cons_self
    exact absurd hminus (by decide)
  | false =>
    rw [if_neg (Bool.eq_false_iff.1 hinverse)] at hwhole
    obtain ⟨rfl, hhead⟩ := hwhole
    constructor
    · rintro ⟨-, gap, rest, hgap, htrim⟩
      refine ⟨gap, rest, ?_, hgap, htrim⟩
      rintro rfl
      exact hhead (htrim ▸ rfl)
    · rintro ⟨gap, rest, -, hgap, htrim⟩
      exact ⟨rfl, gap, rest, hgap, htrim⟩

/-- **Which names are read back.** A property that a text names is read back from
what is written of it, unless it is not inverse and its label begins with a minus
sign, that is, unless the text has one behind underscores or blanks. Then what is
read is the inverse property of the rest of the label, or none. -/
theorem read_back_iff (h : read? capital t = some property) :
    (read? capital property.write = some property ↔
      (property.inverse = false → property.label.head? ≠ some '-')) ∧
    (property.inverse = false ∧ property.label.head? = some '-' ↔
      ∃ gap rest, gap ≠ [] ∧ gap.all isGap = true ∧ Text.trim t = gap ++ '-' :: rest) ∧
    ∀ rest, property.inverse = false → property.label = '-' :: rest →
      read? capital property.write =
        (normalizeTitle? capital rest).map fun label => ⟨label, true⟩ := by
  obtain ⟨name, hname, -⟩ := read?_eq_some_iff.1 h
  have hlabel := normalizeTitle?_of_normalizeTitle? hname
  refine ⟨read?_write_eq_self_iff hlabel, head?_label_eq_minus_iff h, fun rest hplain hrest => ?_⟩
  have hwrite : property.write = '-' :: rest := by
    rw [write, if_neg (Bool.eq_false_iff.1 hplain), hrest]
  rw [read?, trim_write_of_isTitle (isTitle_of_normalizeTitle? hlabel), hwrite]
  rfl

/-- The first of two minus signs is the one of an inverse property. -/
theorem read_back_two_signs :
    let property : Property := ⟨"-x".toList, true⟩
    read? true "- _-x".toList = some property ∧ property.write = "--x".toList ∧
      read? true property.write = some property := by
  intro property
  have hread : read? true "- _-x".toList = some property := by decide +kernel
  exact ⟨hread, by decide, (read_back_iff hread).1.2 fun hplain => absurd hplain (by decide)⟩

/-- The label `-x`, which an underscore keeps from being inverse, is read back as
the inverse property `X`, and the label `-` as none. -/
theorem label_is_read_back_as_inverse :
    read? true "_-x".toList = some ⟨"-x".toList, false⟩ ∧
      write ⟨"-x".toList, false⟩ = "-x".toList ∧
      read? true "-x".toList = some ⟨"X".toList, true⟩ ∧
      read? true "_-".toList = some ⟨"-".toList, false⟩ ∧
      write ⟨"-".toList, false⟩ = "-".toList ∧ read? true "-".toList = none := by
  decide +kernel

end Property

end InlineQuery
