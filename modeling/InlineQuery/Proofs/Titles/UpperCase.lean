/-
What is in upper case stays as it is.

The upper case of a character is not empty, begins with a character that is its
own upper case, and is made of characters that may stand in a title, if the
character itself may (`exists_upperCase`). So a title that is capitalized is a
title again, and capitalizing it once more changes nothing.

# The table

Characters that become several are looked at one by one. The others come in
runs, and what a run sends its code points to is a run again (`CaseRun.target`).
That such a target has no code point in common with any other run that matters
is seen from the ends of the two, and from their parity where both take every
second code point (`CaseRun.apart`): a comparison of pairs of runs, not of code
points.
-/
import InlineQuery.Title

namespace InlineQuery

/-- The character may stand in a word of a title. -/
def isTitleChar (c : Char) : Bool :=
  !isBlank c && c != '_' && !titleForbidden.contains c

-- ===================================================================== runs

namespace CaseRun

variable {run other : CaseRun} {code : Nat}

/-- The code points that a run sends its own to. -/
def target (run : CaseRun) : CaseRun :=
  ⟨(run.first + run.offset).toNat, (run.last + run.offset).toNat, run.stride, 0⟩

/-- The code points of a range. -/
def ofRange (range : Nat × Nat) : CaseRun := ⟨range.1, range.2, 1, 0⟩

/-- A single code point. -/
def single (code : Nat) : CaseRun := ofRange (code, code)

/-- No code point belongs to both runs, as can be seen from their ends: one lies
behind the other, or between the code points of the other. -/
def apart (run other : CaseRun) : Bool :=
  Nat.blt run.last other.first || Nat.blt other.last run.first ||
    (run.stride == 2 && other.stride == 2 && (run.first + other.first) % 2 == 1) ||
    (run.first == run.last && !other.covers run.first)

theorem covers_iff :
    run.covers code = true ↔
      run.first ≤ code ∧ code ≤ run.last ∧ (code - run.first) % run.stride = 0 := by
  simp [covers, and_assoc]

@[simp]
theorem covers_single (code : Nat) : (single code).covers code = true :=
  covers_iff.2 ⟨Nat.le_refl code, Nat.le_refl code, Nat.mod_one _⟩

theorem covers_ofRange {range : Nat × Nat} :
    (ofRange range).covers code = true ↔ range.1 ≤ code ∧ code ≤ range.2 := by
  simp [covers_iff, ofRange, Nat.mod_one]

/-- A code point of the one run does not belong to the other. -/
theorem covers_of_apart (h : run.apart other = true) (hcode : run.covers code = true) :
    other.covers code = false := by
  rw [Bool.eq_false_iff]
  intro hother
  obtain ⟨hfirst, hlast, hstride⟩ := covers_iff.1 hcode
  obtain ⟨hfirst', hlast', hstride'⟩ := covers_iff.1 hother
  simp only [apart, Bool.or_eq_true, Bool.and_eq_true, Nat.blt_eq, beq_iff_eq,
    Bool.not_eq_true'] at h
  rcases h with ((hbefore | hbehind) | ⟨⟨htwo, htwo'⟩, hodd⟩) | ⟨hsingle, hnot⟩
  · omega
  · omega
  · -- the two run through numbers of different parity
    rw [htwo] at hstride
    rw [htwo'] at hstride'
    omega
  · have heq : run.first = code := by omega
    rw [heq, hother] at hnot
    cases hnot

/-- Where a run sends its code points, unless that lies before the first of
all. -/
theorem covers_target (hfirst : 0 ≤ (run.first : Int) + run.offset)
    (h : run.covers code = true) : run.target.covers (run.image code) = true := by
  obtain ⟨hle, hge, hstride⟩ := covers_iff.1 h
  refine covers_iff.2 ⟨?_, ?_, ?_⟩
  · show ((run.first : Int) + run.offset).toNat ≤ ((code : Int) + run.offset).toNat
    omega
  · show ((code : Int) + run.offset).toNat ≤ ((run.last : Int) + run.offset).toNat
    omega
  · have hsame : run.image code - run.target.first = code - run.first := by
      show ((code : Int) + run.offset).toNat - ((run.first : Int) + run.offset).toNat = _
      omega
    rw [hsame]
    exact hstride

/-- A code point is left alone, or a run that it belongs to sends it away. -/
theorem mapCode_cases (runs : List CaseRun) (code : Nat) :
    mapCode runs code = code ∨
      ∃ run ∈ runs, run.covers code = true ∧ mapCode runs code = run.image code := by
  cases hfind : runs.find? fun run => run.covers code with
  | none => exact .inl (mapCode_of_find?_eq_none hfind)
  | some run =>
    have hcovers : run.covers code = true := by simpa using List.find?_some hfind
    exact .inr ⟨run, List.mem_of_find?_eq_some hfind, hcovers, by simp only [mapCode, hfind]⟩

end CaseRun

open CaseRun

-- ==================================================== characters of titles

/-- The code points of the characters that stand in no word of a title. -/
def untitledRuns : List CaseRun :=
  blankRanges.map ofRange ++ ('_' :: titleForbidden).map fun c => single c.toNat

theorem isTitleChar_of_covers {c : Char}
    (h : ∀ run ∈ untitledRuns, run.covers c.toNat = false) : isTitleChar c = true := by
  have hother : c ∉ '_' :: titleForbidden := by
    intro hmem
    have hnot := h _ (List.mem_append_right _ (List.mem_map_of_mem hmem))
    rw [covers_single] at hnot
    cases hnot
  have hblank : isBlank c = false := by
    rw [isBlank, List.any_eq_false]
    intro range hrange hin
    have hnot := h _ (List.mem_append_left _ (List.mem_map_of_mem hrange))
    rw [Bool.and_eq_true, decide_eq_true_eq, decide_eq_true_eq] at hin
    rw [covers_ofRange.2 hin] at hnot
    cases hnot
  rw [List.mem_cons, not_or] at hother
  simp [isTitleChar, hblank, hother]

-- ================================================================ the table

/-- The code points that `upperCodes` does not leave alone. -/
def mappedRuns : List CaseRun :=
  (upperExpansions.map fun entry => single entry.1) ++ upperRuns

/-- The code point is that of a character which may stand in a title. -/
structure IsTitleCode (code : Nat) : Prop where
  valid : code.isValidChar
  titled : ∀ run ∈ untitledRuns, run.covers code = false

/-- It is an entry of the table that tells the upper case of a code point, or a
run, or nothing at all. -/
theorem upperCodes_cases (code : Nat) :
    (∃ entry ∈ upperExpansions, upperCodes code = entry.2) ∨
      (∃ run ∈ upperRuns, run.covers code = true ∧ upperCodes code = [run.image code]) ∨
      upperCodes code = [code] := by
  unfold upperCodes
  split
  · next entry hentry => exact .inl ⟨entry, List.mem_of_find?_eq_some hentry, rfl⟩
  · rcases mapCode_cases upperRuns code with heq | ⟨run, hrun, hcovers, heq⟩
    · exact .inr (.inr (congrArg ([·]) heq))
    · exact .inr (.inl ⟨run, hrun, hcovers, congrArg ([·]) heq⟩)

theorem upperCodes_eq_self {code : Nat} (h : ∀ run ∈ mappedRuns, run.covers code = false) :
    upperCodes code = [code] := by
  have hentry : (upperExpansions.find? fun entry => entry.1 == code) = none := by
    rw [List.find?_eq_none]
    intro entry hentry heq
    have hnot := h _ (List.mem_append_left _ (List.mem_map_of_mem hentry))
    rw [eq_of_beq heq, covers_single] at hnot
    cases hnot
  rw [upperCodes, hentry]
  rcases mapCode_cases upperRuns code with heq | ⟨run, hrun, hcovers, -⟩
  · exact congrArg ([·]) heq
  · rw [h run (List.mem_append_right _ hrun)] at hcovers
    cases hcovers

/-- No run leads to before the first code point. -/
theorem covers_target_of_mem {run : CaseRun} (h : run ∈ upperRuns) {code : Nat}
    (hcode : run.covers code = true) : run.target.covers (run.image code) = true := by
  have hfirst : upperRuns.all (fun run => decide (0 ≤ (run.first : Int) + run.offset)) = true := by
    decide +kernel
  exact covers_target (of_decide_eq_true (List.all_eq_true.1 hfirst run h)) hcode

/-- What the runs map to is valid, may stand in titles, and is mapped no
further. -/
theorem isTitleCode_image {run : CaseRun} (h : run ∈ upperRuns) {code : Nat}
    (hcode : run.covers code = true) :
    IsTitleCode (run.image code) ∧ upperCodes (run.image code) = [run.image code] := by
  have hends : upperRuns.all (fun run => decide (run.target.last < 0xd800 ∨
      0xdfff < run.target.first ∧ run.target.last < 0x110000)) = true := by
    decide +kernel
  have hapart : upperRuns.all (fun run => (untitledRuns ++ mappedRuns).all run.target.apart) =
      true := by
    decide +kernel
  have hvalid := of_decide_eq_true (List.all_eq_true.1 hends run h)
  have htarget := covers_target_of_mem h hcode
  have hnone : ∀ other ∈ untitledRuns ++ mappedRuns, other.covers (run.image code) = false :=
    fun other hother =>
      covers_of_apart (List.all_eq_true.1 (List.all_eq_true.1 hapart run h) other hother) htarget
  refine ⟨⟨?_, fun other hother => hnone other (List.mem_append_left _ hother)⟩,
    upperCodes_eq_self fun other hother => hnone other (List.mem_append_right _ hother)⟩
  obtain ⟨hle, hge, -⟩ := covers_iff.1 htarget
  rcases hvalid with hvalid | ⟨hvalid, hlast⟩
  · exact .inl (by omega)
  · exact .inr ⟨by omega, by omega⟩

/-- The characters that become several become characters that may stand in
titles, of which the first is mapped no further. -/
theorem exists_of_mem_upperExpansions {entry : Nat × List Nat} (h : entry ∈ upperExpansions) :
    ∃ code codes, entry.2 = code :: codes ∧ upperCodes code = [code] ∧
      ∀ other ∈ code :: codes, IsTitleCode other := by
  have hall : upperExpansions.all (fun entry =>
      (entry.2.head?.any fun code => upperCodes code == [code]) &&
        entry.2.all fun code => decide code.isValidChar && untitledRuns.all (!·.covers code)) =
      true := by
    decide +kernel
  obtain ⟨hhead, hcodes⟩ := Bool.and_eq_true_iff.1 (List.all_eq_true.1 hall entry h)
  obtain ⟨code, hfirst, hupper⟩ := (Option.any_eq_true _ _).1 hhead
  obtain ⟨codes, hsplit⟩ := List.head?_eq_some_iff.1 hfirst
  refine ⟨code, codes, hsplit, eq_of_beq hupper, fun other hother => ?_⟩
  obtain ⟨hvalid, hruns⟩ :=
    Bool.and_eq_true_iff.1 (List.all_eq_true.1 hcodes other (hsplit ▸ hother))
  refine ⟨of_decide_eq_true hvalid, fun run hrun => ?_⟩
  simpa using List.all_eq_true.1 hruns run hrun

-- =============================================================== characters

namespace IsTitleCode

variable {code : Nat}

theorem toNat_ofNat (h : IsTitleCode code) : (Char.ofNat code).toNat = code := by
  rw [Char.ofNat, dif_pos h.valid]
  rfl

theorem isTitleChar_ofNat (h : IsTitleCode code) : isTitleChar (Char.ofNat code) = true := by
  refine isTitleChar_of_covers fun run hrun => ?_
  rw [h.toNat_ofNat]
  exact h.titled run hrun

theorem upperCase_ofNat (h : IsTitleCode code) (hupper : upperCodes code = [code]) :
    upperCase (Char.ofNat code) = [Char.ofNat code] := by
  rw [upperCase, h.toNat_ofNat, hupper]
  rfl

end IsTitleCode

/-- The upper case of a character begins with a character that is in upper case,
and all of it may stand in a title if the character may. -/
theorem exists_upperCase (c : Char) :
    ∃ d ds, upperCase c = d :: ds ∧ upperCase d = [d] ∧
      (isTitleChar c = true → ∀ e ∈ d :: ds, isTitleChar e = true) := by
  rcases upperCodes_cases c.toNat with
    ⟨entry, hentry, heq⟩ | ⟨run, hrun, hcovers, heq⟩ | heq
  · obtain ⟨code, codes, hsplit, hupper, hcodes⟩ := exists_of_mem_upperExpansions hentry
    refine ⟨Char.ofNat code, codes.map Char.ofNat, ?_,
      (hcodes code List.mem_cons_self).upperCase_ofNat hupper, fun _ e he => ?_⟩
    · rw [upperCase, heq, hsplit, List.map_cons]
    · rw [← List.map_cons] at he
      obtain ⟨other, hother, rfl⟩ := List.mem_map.1 he
      exact (hcodes other hother).isTitleChar_ofNat
  · obtain ⟨hcode, hupper⟩ := isTitleCode_image hrun hcovers
    refine ⟨Char.ofNat (run.image c.toNat), [], ?_, hcode.upperCase_ofNat hupper, fun _ => ?_⟩
    · rw [upperCase, heq]
      rfl
    · exact List.forall_mem_singleton.2 hcode.isTitleChar_ofNat
  · have hself : upperCase c = [c] := by
      rw [upperCase, heq, List.map_cons, Char.ofNat_toNat]
      rfl
    exact ⟨c, [], hself, hself, fun hc => List.forall_mem_singleton.2 hc⟩

/-- The character is its own upper case, and occurs in that of no other one, as can
be seen from the table. -/
def isUncased (d : Char) : Bool :=
  upperCodes d.toNat == [d.toNat] &&
    upperExpansions.all (fun entry => !(entry.2.map Char.ofNat).contains d) &&
    upperRuns.all fun run => run.target.apart (single d.toNat)

theorem mem_upperCase_iff {c d : Char} (hd : isUncased d = true) : d ∈ upperCase c ↔ c = d := by
  simp only [isUncased, Bool.and_eq_true, beq_iff_eq] at hd
  obtain ⟨⟨hself, hexpansions⟩, hruns⟩ := hd
  rw [upperCase]
  constructor
  · intro hmem
    rcases upperCodes_cases c.toNat with
      ⟨entry, hentry, heq⟩ | ⟨run, hrun, hcovers, heq⟩ | heq
    · have hnot := List.all_eq_true.1 hexpansions entry hentry
      rw [heq] at hmem
      simp [hmem] at hnot
    · -- where the run leads to, the character is not
      have hother := covers_of_apart (List.all_eq_true.1 hruns run hrun)
        (covers_target_of_mem hrun hcovers)
      have hvalid := (isTitleCode_image hrun hcovers).1.toNat_ofNat
      rw [heq, List.map_singleton, List.mem_singleton] at hmem
      rw [← hvalid, ← hmem, covers_single] at hother
      cases hother
    · rw [heq, List.map_singleton, Char.ofNat_toNat, List.mem_singleton] at hmem
      exact hmem.symm
  · rintro rfl
    rw [hself, List.map_singleton, Char.ofNat_toNat]
    exact List.mem_singleton_self c

end InlineQuery
