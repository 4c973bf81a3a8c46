/-
Chunks and atoms in their contexts.

A reader that goes through a part of a query without a report has not looked at
anything behind that part, at the blocks around it or at earlier diagnostics.
So the same part is read the same way wherever it stands (`Context`). Here this
is shown of chunks, of combinations and of the atoms that have no subqueries in
them; `Independence` goes on to all readings.

# Why nothing is looked at

A cut looks no further than its delimiter (`StopSet.cut_append`), but it does
look that far. What is needed at each cut is therefore that something is left
behind it, or that it took a delimiter of its own. Both follow from the reading
being quiet: an atom that ends without a report ends at `]]`, so there was
something left behind every chunk before that.

The number of diagnostics at the beginning of an atom, which decides whether a
missing condition is reported, does not matter where no condition is missing.
-/
import InlineQuery.Proofs.Reading.Appending
import InlineQuery.Proofs.Reading.Associativity
import InlineQuery.Proofs.Reading.Nesting

namespace InlineQuery

namespace State

variable {s t u : State}

/-- If nothing was reported on a way, nothing was on either half of it. -/
theorem Precedes.quiet (h : s.Precedes t) (h' : t.Precedes u)
    (hquiet : u.diagnostics = s.diagnostics) :
    t.diagnostics = s.diagnostics ∧ u.diagnostics = t.diagnostics := by
  have hle := h'.length_le
  rw [hquiet] at hle
  have hfirst : s.diagnostics = t.diagnostics := List.IsPrefix.eq_of_length_le h hle
  exact ⟨hfirst.symm, hquiet.trans hfirst⟩

/-- A report is heard. -/
theorem Precedes.not_quiet_of_report (problem : Diagnostic)
    (h : (s.report problem).Precedes t) : t.diagnostics ≠ s.diagnostics := by
  intro hquiet
  have hle := h.length_le
  rw [length_report, hquiet] at hle
  exact Nat.not_succ_le_self _ hle

end State

namespace Reader

open State

/-- The reader of a wiki that permits everything and restricts nothing. -/
structure Permissive (r : Reader) : Prop where
  defaults : r.defaults = none
  features : ∀ feature, r.config.features.has feature = true

/-- The reader of such a wiki, with the usual names for its classes. -/
structure Unrestricted (r : Reader) : Prop extends r.Permissive where
  labels : r.config.labels = canonicalLabels

theorem permissive_ofConfig {config : Config} (hdefaults : config.defaultNamespaces = none)
    (hall : ∀ feature, config.features.has feature = true) : (ofConfig config).Permissive := by
  refine ⟨?_, hall⟩
  show config.defaultNamespaces.map (restriction config) = none
  rw [hdefaults]
  rfl

theorem unrestricted_ofConfig {config : Config} (hcategory : config.categoryLabel = categoryName)
    (hconcept : config.conceptLabel = conceptName) (hdefaults : config.defaultNamespaces = none)
    (hall : ∀ feature, config.features.has feature = true) : (ofConfig config).Unrestricted := by
  refine ⟨permissive_ofConfig hdefaults hall, ?_⟩
  show ClassLabels.mk config.categoryLabel config.conceptLabel = _
  rw [hcategory, hconcept]
  rfl

-- ================================================================= contexts

/-- What surrounds a part of a query: what stands behind it, the blocks that
are open around it, and what was reported in front of it. -/
structure Context where
  behind : Text
  blocks : List Block
  diagnostics : List Diagnostic

namespace Context

/-- The state in which this text is left to read, in its context. -/
def put (ctx : Context) (t : Text) : State := ⟨t ++ ctx.behind, ctx.blocks, ctx.diagnostics⟩

/-- One more block is open. -/
def enter (ctx : Context) (block : Block) : Context := { ctx with blocks := block :: ctx.blocks }

def chunk (ctx : Context) (c : Chunk) : Chunk := ⟨c.text, ctx.put c.state.rest⟩

def obtained (ctx : Context) (o : Obtained) : Obtained := ⟨o.result, ctx.put o.state.rest⟩

def outcome (ctx : Context) (o : Outcome) : Outcome :=
  ⟨o.result, o.restricted, ctx.put o.state.rest⟩

def members (ctx : Context) (m : Members) : Members := ⟨m.result, ctx.chunk m.terminator⟩

@[simp] theorem enter_put (ctx : Context) (block : Block) (t : Text) :
    (ctx.put t).enter block = (ctx.enter block).put t := rfl

@[simp] theorem state_obtained (ctx : Context) (o : Obtained) :
    (ctx.obtained o).state = ctx.put o.state.rest := rfl

@[simp] theorem text_chunk (ctx : Context) (c : Chunk) : (ctx.chunk c).text = c.text := rfl

@[simp] theorem state_chunk (ctx : Context) (c : Chunk) :
    (ctx.chunk c).state = ctx.put c.state.rest := rfl

end Context

variable {r : Reader} {s : State}

-- =================================================================== chunks

theorem rest_ne_nil_of_nextAt (stop : StopSet) (h : (r.nextAt stop s).text ≠ []) :
    s.rest ≠ [] := by
  intro hnil
  have hlt := nextAt_length_lt h
  rw [hnil] at hlt
  exact Nat.not_lt_zero _ hlt

theorem rest_ne_nil_of_next (h : (r.next s).text ≠ []) : s.rest ≠ [] :=
  rest_ne_nil_of_nextAt .all h

/-- A chunk depends on the text alone. -/
theorem text_nextAt_congr {t : State} (stop : StopSet) (h : s.rest = t.rest) :
    (r.nextAt stop s).text = (r.nextAt stop t).text := by
  unfold nextAt
  rw [h]

theorem IsEnding.ne_nil {ending : Text} (h : IsEnding ending) : ending ≠ [] := by
  cases h <;> exact List.cons_ne_nil _ _

/-- What ends a name or a value is a delimiter wherever bars are. -/
theorem IsEnding.exists_mark {ending : Text} (h : IsEnding ending) (stop : StopSet)
    (hstop : stop ≠ .closingBrackets) :
    ∃ mark ∈ stop.anywhere, 1 < mark.length ∧ (matchFront? mark ending).isSome = true := by
  refine ⟨ending, ?_, ?_, ?_⟩
  · cases stop with
    | closingBrackets => exact absurd rfl hstop
    | all => cases h <;> decide
    | atomContent => cases h <;> decide
  · cases h <;> decide
  · cases h <;> rfl

theorem IsEnding.of_closing {ending : Text} (h : ending = [']', ']']) : IsEnding ending :=
  h ▸ .closing

theorem IsEnding.of_bars {ending : Text} (h : Token.ofChunk ending = .bars) :
    IsEnding ending := by
  have hspells := Token.spells_ofChunk ending
  rw [h] at hspells
  have hbars : ending = ['|', '|'] := hspells
  exact hbars ▸ .bars

theorem IsEnding.isMark {ending : Text} (h : IsEnding ending) :
    (Token.ofChunk ending).IsMark := by
  cases h <;> trivial

/-- A chunk is the same in any context if something is left behind it, or it is
a delimiter of more than one character. -/
theorem nextAt_put (hr : r.Unrestricted) (stop : StopSet)
    (h : (r.nextAt stop s).state.rest ≠ [] ∨ ∃ mark ∈ stop.anywhere, 1 < mark.length ∧
      (matchFront? mark (r.nextAt stop s).text).isSome = true) (ctx : Context) :
    r.nextAt stop (ctx.put s.rest) = ctx.chunk (r.nextAt stop s) := by
  unfold nextAt Context.chunk Context.put at *
  rw [hr.labels] at h ⊢
  have hcut : (stop.cut canonicalLabels s.rest).rest ≠ [] ∨
      ∃ parts, stop.delimiter? canonicalLabels true s.rest = some parts ∧ 1 < parts.1.length := by
    rcases h with hrest | ⟨mark, hmark, hlong, hmatch⟩
    · exact .inl hrest
    · exact .inr (StopSet.delimiter?_of_chunk hmark hlong hmatch)
  dsimp only
  rw [StopSet.cut_append hcut]
  rfl

theorem next_put (hr : r.Unrestricted)
    (h : (r.next s).state.rest ≠ [] ∨ (Token.ofChunk (r.next s).text).IsMark) (ctx : Context) :
    r.next (ctx.put s.rest) = ctx.chunk (r.next s) :=
  nextAt_put hr .all (h.imp id Token.exists_mark) ctx

/-- In front of `]]` or `||`, there is nothing but those to be read. -/
theorem text_next_of_isEnding (hr : r.Unrestricted)
    (h : IsEnding (r.nextAt .atomContent s).text) :
    (r.next s).text = (r.nextAt .atomContent s).text := by
  have hbegins := StopSet.trim_chunk_isPrefix canonicalLabels .atomContent s.rest
  rw [← hr.labels] at hbegins
  obtain ⟨behind, hbehind⟩ := hbegins
  change (r.nextAt .atomContent s).text ++ behind = Text.trimFront s.rest at hbehind
  generalize (r.nextAt .atomContent s).text = ending at h hbehind
  cases h with
  | closing => rw [next_mark (by decide) hbehind.symm]
  | bars => rw [next_bars hr.labels hbehind.symm]

/-- The words that stand between atoms, which have no delimiter in them and do
not begin one. -/
def IsWord (w : Text) : Prop := w = ['O', 'R'] ∨ w = ['+']

namespace IsWord

variable {w : Text}

theorem ne_nil (h : IsWord w) : w ≠ [] := by
  rcases h with rfl | rfl <;> exact List.cons_ne_nil _ _

theorem isInert (h : IsWord w) : ∀ c ∈ w, InlineQuery.isInert c = true := by
  have hall : w.all InlineQuery.isInert = true := by
    rcases h with rfl | rfl <;> decide +kernel
  exact List.all_eq_true.1 hall

theorem trim_append (h : IsWord w) {front : Text} (hfront : Text.isBlankText front = true) :
    Text.trim (front ++ w) = w := by
  rw [Text.trim, Text.trimFront, List.dropWhile_append_of_pos (List.all_eq_true.1 hfront)]
  rcases h with rfl | rfl <;> rfl

theorem passes (h : IsWord w) (k : Text) : StopSet.all.Passes k w := by
  refine StopSet.passes_of_isInert h.isInert (.inl fun c hc => ?_)
  rcases h with rfl | rfl <;> cases hc <;> decide

theorem leadingMarks (h : IsWord w) {front : Text} (hfront : Text.isBlankText front = true)
    (k : Text) :
    firstDelimiter? (StopSet.all.leadingMarks canonicalLabels) (front ++ w ++ k) = none := by
  refine StopSet.leadingMarks_of_head (fun c hc => ?_) .all
  cases front with
  | nil => rcases h with rfl | rfl <;> cases hc <;> decide +kernel
  | cons d front =>
    cases hc
    exact StopSet.sameFold_of_isBlank (List.all_eq_true.1 hfront _ List.mem_cons_self)

/-- A word behind which nothing is left stands between blanks. -/
theorem rest_eq (h : IsWord (r.next s).text) (hrest : (r.next s).state.rest = []) :
    ∃ front back, Text.isBlankText front = true ∧ Text.isBlankText back = true ∧
      front ++ (r.next s).text ++ back = s.rest := by
  have hcut : Text.trim (StopSet.all.cut r.config.labels s.rest).chunk = (r.next s).text := rfl
  obtain ⟨front, back, hfront, hback, happend⟩ :=
    Text.trim_append (StopSet.all.cut r.config.labels s.rest).chunk
  refine ⟨front, back, hfront, hback, ?_⟩
  rw [← hcut, happend]
  cases hdelimiter : StopSet.all.delimiter? r.config.labels true s.rest with
  | some parts =>
    -- the delimiter would be part of the word
    exfalso
    obtain ⟨d, hd, hinert⟩ := StopSet.exists_not_isInert_of_delimiter? hdelimiter
    have hchunk : (StopSet.all.cut r.config.labels s.rest).chunk = parts.1 := by
      rw [StopSet.cut, hdelimiter]
    have hall : ∀ c ∈ (StopSet.all.cut r.config.labels s.rest).chunk,
        InlineQuery.isInert c = true := by
      rw [← happend, hcut]
      intro c hc
      rcases List.mem_append.1 hc with hc | hc
      · rcases List.mem_append.1 hc with hc | hc
        · exact isInert_of_isBlank (List.all_eq_true.1 hfront c hc)
        · exact h.isInert c hc
      · exact isInert_of_isBlank (List.all_eq_true.1 hback c hc)
    rw [hall d (hchunk ▸ hd)] at hinert
    cases hinert
  | none =>
    change (StopSet.all.cut r.config.labels s.rest).rest = [] at hrest
    rw [StopSet.cut, hdelimiter] at hrest ⊢
    exact StopSet.splitBefore_of_rest_nil hrest

end IsWord

/-- What stands behind is nothing, or it begins with a delimiter. -/
def Context.Bounded (ctx : Context) : Prop := ctx.behind = [] ∨ StopsAt ctx.behind

/-- A word at the end of a text is read the same way in front of a delimiter. -/
theorem next_put_word (hr : r.Unrestricted) (h : IsWord (r.next s).text) {ctx : Context}
    (hctx : (r.next s).state.rest = [] → ctx.Bounded) :
    r.next (ctx.put s.rest) = ctx.chunk (r.next s) := by
  by_cases hrest : (r.next s).state.rest = []
  · obtain ⟨front, back, hfront, hback, happend⟩ := h.rest_eq hrest
    rcases hctx hrest with hnil | hstops
    · unfold Context.chunk Context.put
      rw [hnil, List.append_nil, List.append_nil]
      rfl
    · have htrim : Text.trimFront (back ++ ctx.behind) = ctx.behind := by
        rw [Text.trimFront, List.dropWhile_append_of_pos (List.all_eq_true.1 hback)]
        exact hstops.trimFront
      have hput : (ctx.put s.rest).rest =
          front ++ (r.next s).text ++ (back ++ ctx.behind) := by
        rw [← List.append_assoc, happend]
        rfl
      rw [next_piece hr.labels hput (List.append_ne_nil_of_right_ne_nil front h.ne_nil)
        (StopSet.passes_blanks (List.all_eq_true.1 hfront) h.ne_nil (h.passes _))
        (h.leadingMarks hfront _) (by rw [htrim]; exact hstops.isSome), h.trim_append hfront,
        htrim]
      unfold Context.chunk Context.put
      rw [hrest]
      rfl
  · exact next_put hr (.inl hrest) ctx

theorem next_put_mark (hr : r.Unrestricted) {token : Token}
    (h : Token.ofChunk (r.next s).text = token) (hmark : token.IsMark) (ctx : Context) :
    r.next (ctx.put s.rest) = ctx.chunk (r.next s) :=
  next_put hr (.inr (h ▸ hmark)) ctx

theorem firstChunk_put (hr : r.Unrestricted) (h : (r.opened s).rest ≠ []) (ctx : Context) :
    r.firstChunk (ctx.put s.rest) = r.firstChunk s ∧
      r.opened (ctx.put s.rest) = (ctx.enter .atom).put (r.opened s).rest := by
  have hcut : (StopSet.all.cut r.config.labels s.rest).rest ≠ [] := h
  unfold firstChunk opened Context.put
  rw [hr.labels] at hcut ⊢
  dsimp only
  rw [StopSet.cut_append (.inl hcut)]
  exact ⟨rfl, rfl⟩

-- ============================================================= combinations

/-- Combinations leave the state alone. -/
theorem Permissive.combine (hr : r.Permissive) (mode : Mode)
    (current incoming : Option Description) (s : State) :
    r.combine mode current incoming s = ⟨current.merge mode.merge incoming, s⟩ :=
  combine_of_permitted hr.features mode current incoming s

/-- The alternatives with the one under way finished. -/
def Progress.ended (p : Progress) : Progress :=
  ⟨none, p.finished ++ [p.current], false, p.restrict⟩

theorem Permissive.finishAlternative (hr : r.Permissive) (p : Progress) (s : State) :
    r.finishAlternative p s = (p.ended, s) := by
  unfold Reader.finishAlternative
  rw [hr.defaults]
  rfl

theorem Permissive.addCondition (hr : r.Permissive) (p : Progress) (o : Outcome) :
    r.addCondition p o =
      ({ p with
          current := p.current.merge (Mode.merge .conjunctive) o.result
          restricted := p.restricted || o.restricted },
        o.state) := by
  rw [Reader.addCondition, hr.combine]

-- ========================================================== closing an atom

/-- Only `]]` ends an atom without a report. -/
theorem text_of_closing_quiet {c : Chunk}
    (hquiet : (leaveAtom (r.expectClosing (r.skipLabel c))).diagnostics = c.state.diagnostics) :
    c.text = [']', ']'] := by
  by_cases hbar : Token.ofChunk c.text = .bar
  · -- a label was skipped and reported
    exfalso
    have hskip : (r.skipToClosing c.state).2.state.diagnostics = c.state.diagnostics :=
      diagnostics_skipToClosing r c.state
    rw [← hskip] at hquiet
    apply Precedes.not_quiet_of_report
      (.trailingContent ('|' :: (r.skipToClosing c.state).1)) _ hquiet
    rw [skipLabel, if_pos hbar]
    exact (precedes_expectClosing r ⟨_, _⟩).trans (precedes_leaveAtom _)
  · rw [skipLabel, if_neg hbar] at hquiet
    by_cases hclosing : c.text = Block.atom.closing
    · exact hclosing
    · exfalso
      rw [expectClosing, if_neg hclosing] at hquiet
      by_cases hempty : c.text.isEmpty = true
      · rw [if_pos hempty] at hquiet
        exact Precedes.not_quiet_of_report .missingClosingBrackets (precedes_leaveAtom _) hquiet
      · rw [if_neg hempty] at hquiet
        have hskip : (c.state.report (.misplacedSymbol c.text)).Precedes
            (r.skipToClosing (c.state.report (.misplacedSymbol c.text))).2.state :=
          .of_eq (diagnostics_skipToClosing r _)
        apply Precedes.not_quiet_of_report (.misplacedSymbol c.text) _ hquiet
        apply Precedes.trans _ (precedes_leaveAtom _)
        dsimp only
        split
        · exact hskip.report _
        · exact hskip

/-- An atom that ends without a report has a condition and ends at `]]`. -/
theorem finishAtom_quiet {mark : Nat} {restrict restricted : Bool}
    {result : Option Description} {c : Chunk} (hmark : mark = c.state.diagnostics.length)
    (hquiet : (r.finishAtom mark restrict restricted result c).state.diagnostics =
      c.state.diagnostics) :
    result.isSome = true ∧ c.text = [']', ']'] := by
  cases result with
  | none =>
    have hlt := length_lt_finishAtom_none r restrict restricted (Nat.le_of_eq hmark)
    rw [hquiet, hmark] at hlt
    exact absurd hlt (Nat.lt_irrefl _)
  | some d =>
    have hrestrict := precedes_restrictAtom r restrict restricted (some d) c.state
    generalize hs : (r.restrictAtom restrict restricted (some d) c.state).state = s at hrestrict
    have hstate : (r.finishAtom mark restrict restricted (some d) c).state =
        leaveAtom (r.expectClosing (r.skipLabel ⟨c.text, s⟩)) := by
      rw [← hs]
      rfl
    rw [hstate] at hquiet
    have hsecond := (hrestrict.quiet (precedes_closing r c.text s) hquiet).2
    exact ⟨rfl, text_of_closing_quiet (c := ⟨c.text, s⟩) hsecond⟩

theorem Permissive.finishAtom (hr : r.Permissive) (mark : Nat) (restrict restricted : Bool)
    (d : Description) (s : State) :
    r.finishAtom mark restrict restricted (some d) ⟨[']', ']'], s⟩ =
      ⟨some d, restricted, leaveAtom s⟩ := by
  have hrestrict : r.restrictAtom restrict restricted (some d) s = ⟨some d, restricted, s⟩ := by
    unfold restrictAtom
    rw [hr.defaults]
  unfold Reader.finishAtom
  simp only [Option.isNone_some, Bool.false_and, Bool.false_eq_true, if_false, hrestrict]
  rfl

theorem finishAtom_put (hr : r.Unrestricted) {mark : Nat} {restrict restricted : Bool}
    {result : Option Description} {c : Chunk} (hmark : mark = c.state.diagnostics.length)
    (hquiet : (r.finishAtom mark restrict restricted result c).state.diagnostics =
      c.state.diagnostics) (ctx : Context) (mark' : Nat) :
    r.finishAtom mark' restrict restricted result ((ctx.enter .atom).chunk c) =
      ctx.outcome (r.finishAtom mark restrict restricted result c) := by
  obtain ⟨hsome, htext⟩ := finishAtom_quiet hmark hquiet
  obtain ⟨d, rfl⟩ := Option.isSome_iff_exists.1 hsome
  obtain ⟨text, s⟩ := c
  cases htext
  unfold Context.chunk Context.outcome
  rw [hr.finishAtom, hr.finishAtom, rest_leaveAtom]
  rfl

-- ======================================================= atoms by their kind

/-- Nothing is reported of a member of a class, and it is read the same way. -/
theorem memberAt_put (hr : r.Unrestricted) {kind : ClassKind} {result : Option Description}
    (hrest : (r.next s).state.rest ≠ [])
    (hquiet : (r.memberAt kind result s).state.diagnostics = s.diagnostics) (ctx : Context) :
    r.memberAt kind result (ctx.put s.rest) = ctx.obtained (r.memberAt kind result s) := by
  have hnext := next_put hr (.inl hrest) ctx
  unfold memberAt at hquiet ⊢
  rw [hnext]
  by_cases hwildcard : Token.ofChunk (r.next s).text = .wildcard
  · rw [Context.text_chunk, if_pos hwildcard, if_pos hwildcard]
    rfl
  · rw [if_neg hwildcard, hr.combine] at hquiet
    rw [Context.text_chunk, if_neg hwildcard, if_neg hwildcard, hr.combine, hr.combine]
    cases hproblem : (classMember r.config kind (r.next s).text).2 with
    | none => rfl
    | some problem =>
      rw [hproblem] at hquiet
      exact absurd hquiet (Precedes.not_quiet_of_report (s := (r.next s).state) problem (.refl _))

/-- The members of a class are read the same way up to `]]`. -/
theorem readClass_put (hr : r.Unrestricted) (kind : ClassKind) (result : Option Description)
    (s : State)
    (hquiet : (r.readClass kind result s).terminator.state.diagnostics = s.diagnostics)
    (hend : IsEnding (r.readClass kind result s).terminator.text) (ctx : Context) :
    r.readClass kind result (ctx.put s.rest) = ctx.members (r.readClass kind result s) := by
  -- a member has a chunk behind it, so it is cut off the same way
  have hmember (hne : (r.next (r.memberAt kind result s).state).text ≠ [])
      (hquiet : (r.memberAt kind result s).state.diagnostics = s.diagnostics) :
      r.next (ctx.put s.rest) = ctx.chunk (r.next s) ∧
        r.memberAt kind result (ctx.put s.rest) = ctx.obtained (r.memberAt kind result s) := by
    have hrest := rest_ne_nil_of_next hne
    rw [rest_memberAt] at hrest
    exact ⟨next_put hr (.inl hrest) ctx, memberAt_put hr hrest hquiet ctx⟩
  by_cases hdelimiter : (Token.ofChunk (r.next s).text).isDelimiter = true
  · rw [readClass_end hdelimiter] at hend ⊢
    have hname := next_put hr (.inr hend.isMark) ctx
    rw [readClass_end (by rw [hname]; exact hdelimiter), hname]
    rfl
  · rw [Bool.not_eq_true] at hdelimiter
    by_cases hmore : kind = .category ∧
        Token.ofChunk (r.next (r.memberAt kind result s).state).text = .bars
    · rw [readClass_more hdelimiter hmore] at hquiet hend ⊢
      obtain ⟨hquietMember, hquietOthers⟩ := (precedes_memberAt r kind result s).quiet
        (precedes_readClass r kind _ (r.next (r.memberAt kind result s).state).state) hquiet
      have hlt : (r.next (r.memberAt kind result s).state).state.rest.length < s.rest.length := by
        refine Nat.lt_of_le_of_lt (next_length_le r _) ?_
        rw [rest_memberAt]
        exact next_length_lt_of_member hdelimiter
      obtain ⟨hname, hput⟩ := hmember (Token.ne_nil_of_ofChunk hmore.2 nofun) hquietMember
      have hfollowing := next_put_mark hr hmore.2 trivial ctx
      have hbars : Token.ofChunk
          (r.next (r.memberAt kind result (ctx.put s.rest)).state).text = .bars := by
        rw [hput, Context.state_obtained, hfollowing]
        exact hmore.2
      rw [readClass_more (by rw [hname]; exact hdelimiter) ⟨hmore.1, hbars⟩, hput,
        Context.state_obtained, hfollowing]
      exact readClass_put hr kind _ (r.next _).state hquietOthers hend ctx
    · rw [readClass_last hdelimiter hmore] at hquiet hend ⊢
      obtain ⟨hname, hput⟩ := hmember hend.ne_nil hquiet
      have hfollowing := next_put hr (.inr hend.isMark) ctx
      have hlast : ¬ (kind = .category ∧ Token.ofChunk
          (r.next (r.memberAt kind result (ctx.put s.rest)).state).text = .bars) := by
        rw [hput, Context.state_obtained, hfollowing]
        exact hmore
      rw [readClass_last (by rw [hname]; exact hdelimiter) hlast, hput, Context.state_obtained,
        hfollowing]
      rfl
termination_by s.rest.length

/-- A page name that is not reported stands in front of `]]` or `||`. -/
theorem articleAtom_quiet {mark : Nat} {restrict : Bool} {result : Option Description}
    {c : Chunk} (hmark : mark = c.state.diagnostics.length)
    (hquiet : (r.articleAtom mark restrict result c).state.diagnostics = c.state.diagnostics) :
    Token.ofChunk c.text ≠ .openQuery ∧
      (r.articleAt result c).state.diagnostics = c.state.diagnostics ∧
      IsEnding (r.nextAt .atomContent (r.articleAt result c).state).text := by
  have hquery : Token.ofChunk c.text ≠ .openQuery := by
    intro hquery
    rw [articleAtom_misplaced hquery] at hquiet
    exact Precedes.not_quiet_of_report .misplacedSubquery
      (precedes_abandonAtom r mark restrict _) hquiet
  have hadd := precedes_articleAt r result c
  by_cases hmore : Token.ofChunk (r.nextAt .atomContent (r.articleAt result c).state).text = .bars
  · rw [articleAtom_more hquery hmore] at hquiet
    have hothers := precedes_articleAtom r mark restrict (r.articleAt result c).result
      (r.nextAt .atomContent (r.nextAt .atomContent (r.articleAt result c).state).state)
    exact ⟨hquery, (hadd.quiet hothers hquiet).1, .of_bars hmore⟩
  · rw [articleAtom_close hquery hmore] at hquiet
    have hfinish := precedes_finishAtom r mark restrict true (r.articleAt result c).result
      (r.nextAt .atomContent (r.articleAt result c).state)
    obtain ⟨hquietMember, hquietFinish⟩ := hadd.quiet hfinish hquiet
    have hmark' : mark = (r.articleAt result c).state.diagnostics.length := by
      rw [hquietMember]
      exact hmark
    exact ⟨hquery, hquietMember, .of_closing (finishAtom_quiet hmark' hquietFinish).2⟩

/-- Nothing is reported of a page name, and it is taken the same way. -/
theorem articleAt_put (hr : r.Unrestricted) {result : Option Description} {c : Chunk}
    (hquiet : (r.articleAt result c).state.diagnostics = c.state.diagnostics) (ctx : Context) :
    r.articleAt result (ctx.chunk c) = ctx.obtained (r.articleAt result c) := by
  unfold articleAt at hquiet ⊢
  rw [hr.combine] at hquiet ⊢
  rw [hr.combine, Context.text_chunk]
  cases hproblem : (articleMember r.config c.text).2 with
  | none => rfl
  | some problem =>
    rw [hproblem] at hquiet
    exact absurd hquiet (Precedes.not_quiet_of_report problem (.refl _))

/-- The pages of an atom are read the same way up to `]]`. -/
theorem articleAtom_put (hr : r.Unrestricted) (mark : Nat) (restrict : Bool)
    (result : Option Description) (c : Chunk) (hmark : mark = c.state.diagnostics.length)
    (hquiet : (r.articleAtom mark restrict result c).state.diagnostics = c.state.diagnostics)
    (ctx : Context) (mark' : Nat) :
    r.articleAtom mark' restrict result ((ctx.enter .atom).chunk c) =
      ctx.outcome (r.articleAtom mark restrict result c) := by
  obtain ⟨hquery, hquietMember, hend⟩ := articleAtom_quiet hmark hquiet
  have hfollowing := nextAt_put hr .atomContent (.inr (hend.exists_mark .atomContent (by decide)))
    (ctx.enter .atom)
  have hput := articleAt_put hr hquietMember (ctx.enter .atom)
  have hmark' : mark = (r.articleAt result c).state.diagnostics.length := by
    rw [hquietMember]
    exact hmark
  by_cases hmore : Token.ofChunk (r.nextAt .atomContent (r.articleAt result c).state).text = .bars
  · -- the name behind the bars is cut off the same way
    rw [articleAtom_more hquery hmore] at hquiet ⊢
    have hothers := precedes_articleAtom r mark restrict (r.articleAt result c).result
      (r.nextAt .atomContent (r.nextAt .atomContent (r.articleAt result c).state).state)
    have hquietOthers := ((precedes_articleAt r result c).quiet hothers hquiet).2
    have hlt : (r.nextAt .atomContent
        (r.nextAt .atomContent (r.articleAt result c).state).state).state.rest.length <
          c.state.rest.length := by
      refine Nat.lt_of_le_of_lt (nextAt_length_le r _ _) ?_
      rw [← rest_articleAt r result c]
      exact nextAt_length_lt hend.ne_nil
    have hnext := rest_ne_nil_of_nextAt .atomContent (articleAtom_quiet
      (c := r.nextAt .atomContent
        (r.nextAt .atomContent (r.articleAt result c).state).state) hmark' hquietOthers).2.2.ne_nil
    rw [rest_articleAt] at hnext
    have hname := nextAt_put hr .atomContent (.inl hnext) (ctx.enter .atom)
    have hmore' : Token.ofChunk (r.nextAt .atomContent
        (r.articleAt result ((ctx.enter .atom).chunk c)).state).text = .bars := by
      rw [hput, Context.state_obtained, hfollowing]
      exact hmore
    rw [articleAtom_more (c := (ctx.enter .atom).chunk c) hquery hmore', hput,
      Context.state_obtained, hfollowing, Context.state_chunk, hname]
    exact articleAtom_put hr mark restrict (r.articleAt result c).result
      (r.nextAt .atomContent (r.nextAt .atomContent (r.articleAt result c).state).state)
      hmark' hquietOthers ctx mark'
  · rw [articleAtom_close hquery hmore] at hquiet ⊢
    have hfinish := precedes_finishAtom r mark restrict true (r.articleAt result c).result
      (r.nextAt .atomContent (r.articleAt result c).state)
    have hquietFinish := ((precedes_articleAt r result c).quiet hfinish hquiet).2
    have hlast : Token.ofChunk (r.nextAt .atomContent
        (r.articleAt result ((ctx.enter .atom).chunk c)).state).text ≠ .bars := by
      rw [hput, Context.state_obtained, hfollowing]
      exact hmore
    rw [articleAtom_close (c := (ctx.enter .atom).chunk c) hquery hlast, hput,
      Context.state_obtained, hfollowing]
    exact finishAtom_put hr hmark' hquietFinish ctx mark'
termination_by c.state.rest.length

-- =================================================================== values

theorem readValueFrom_nil (labels : ClassLabels) (openBrackets : Nat) (value : Text) :
    readValueFrom labels openBrackets value [] = ⟨value, [], []⟩ := by
  rw [readValueFrom]
  simp only [StopSet.cut_nil]
  exact if_pos rfl

/-- The text of a value is read the same way up to its end. -/
theorem readValueFrom_append (openBrackets : Nat) (value t : Text)
    (hend : IsEnding (readValueFrom canonicalLabels openBrackets value t).terminator)
    (k : Text) :
    readValueFrom canonicalLabels openBrackets value (t ++ k) =
      { readValueFrom canonicalLabels openBrackets value t with
        rest := (readValueFrom canonicalLabels openBrackets value t).rest ++ k } := by
  fun_induction readValueFrom canonicalLabels openBrackets value t with
  | case1 openBrackets value t cut stillOpen h =>
    have hmark : ∃ parts, StopSet.atomContent.delimiter? canonicalLabels true t = some parts ∧
        1 < parts.1.length := by
      obtain ⟨mark, hmark, hlong, hmatch⟩ := hend.exists_mark .atomContent (by decide)
      exact StopSet.delimiter?_of_chunk hmark hlong hmatch
    rw [readValueFrom, StopSet.cut_append (.inr hmark)]
    exact if_pos h
  | case2 openBrackets value t cut stillOpen h ih =>
    have hrest : (StopSet.atomContent.cut canonicalLabels t).rest ≠ [] := by
      intro hnil
      have hcut : cut.rest = [] := hnil
      rw [hcut, readValueFrom_nil] at hend
      exact hend.ne_nil rfl
    rw [readValueFrom, StopSet.cut_append (.inl hrest)]
    exact (if_neg h).trans (ih hend)

end Reader

end InlineQuery
