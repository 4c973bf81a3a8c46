/-
Every atom goes on behind its own `]]`.

However an atom is read, it comes to one end (`OwnClosing`), to which it hands
the chunk that it has read last. The end looks for the next `]]` if that chunk
is none, past a label and past whatever else stands in front of it, and reports
missing brackets where the query has no `]]` left. So an atom takes its text up
to a `]]`, or all the text there is (`atom_resumes`), and what is wrong with it
does not spill over into what follows.

# Two chunks are enough

In getting past the rest of a broken atom only `]]` is a delimiter, whatever the
classes are called. What the first chunk leaves behind is then nothing, or
begins with `]]`, blanks apart (`StopSet.isSome_of_splitBefore`); and where a
chunk is `]]`, it was cut off as a delimiter, so that no more than that was
taken (`StopSet.takenFrom_cut`).
-/
import InlineQuery.Proofs.Reading.Conservation
import InlineQuery.Proofs.Reading.Termination

namespace InlineQuery

-- ============================================================ chunks taken off

/-- The chunk was taken off the front of `t`, perhaps with more text before
it: the rest is the end of `t`, with `]]` in front of it if that is the chunk,
and there is no chunk only where nothing is left. -/
structure Cut.TakenFrom (cut : Cut) (t : Text) : Prop where
  isSuffix : cut.rest <:+ t
  closing : cut.chunk = Block.atom.closing → Block.atom.closing ++ cut.rest <:+ t
  finish : cut.chunk = [] → cut.rest = []

theorem Cut.TakenFrom.of_isSuffix {cut : Cut} {t u : Text} (h : cut.TakenFrom t)
    (hsuffix : t <:+ u) : cut.TakenFrom u where
  isSuffix := h.isSuffix.trans hsuffix
  closing hchunk := (h.closing hchunk).trans hsuffix
  finish := h.finish

namespace StopSet

variable {t k : Text}

/-- In every stop set `]]` is found wherever it stands. -/
theorem cut_closing (labels : ClassLabels) (stop : StopSet)
    (h : Text.trimFront t = Block.atom.closing ++ k) :
    stop.cut labels t = ⟨Block.atom.closing, k⟩ := by
  have hfirst : firstDelimiter? stop.marks (Block.atom.closing ++ k) =
      some (Block.atom.closing, k) := by
    cases stop <;> rfl
  rw [cut, delimiter?_of_marks (h ▸ hfirst)]

theorem takenFrom_cut (labels : ClassLabels) (stop : StopSet) (t : Text) :
    (stop.cut labels t).trimmed.TakenFrom t where
  isSuffix := by
    obtain ⟨removed, happend, -⟩ := stop.removes_cut labels t
    exact ⟨removed, happend⟩
  closing hchunk := by
    obtain ⟨behind, hbehind⟩ := stop.trim_chunk_isPrefix labels t
    have hfront : Text.trimFront t = Block.atom.closing ++ behind := by
      rw [← hbehind]
      exact congrArg (· ++ behind) hchunk
    rw [cut_closing labels stop hfront]
    exact hfront ▸ List.dropWhile_suffix isBlank
  finish hchunk := (isBlankText_of_cut (Text.trim_eq_nil_iff.1 hchunk)).2

/-- What is left behind the text in front of a delimiter begins with one, if
there is anything left. -/
theorem isSome_of_splitBefore {labels : ClassLabels} {stop : StopSet}
    (h : (stop.splitBefore labels t).2 ≠ []) :
    (firstDelimiter? stop.anywhere
      (Text.trimFront (stop.splitBefore labels t).2)).isSome = true := by
  induction t with
  | nil => exact absurd rfl h
  | cons c t ih =>
    rw [splitBefore] at h ⊢
    split at h
    · next found hfound =>
      rw [Text.trimFront_trimFront, ← delimiter?_false labels, hfound]
      rfl
    · exact ih h

end StopSet

namespace Reader

open State

variable {r : Reader} {s t : State} {c : Chunk}

/-- A chunk of a reader, as the cut that was made. -/
def Chunk.cut (c : Chunk) : Cut := ⟨c.text, c.state.rest⟩

theorem takenFrom_nextAt (r : Reader) (stop : StopSet) (s : State) :
    (r.nextAt stop s).cut.TakenFrom s.rest :=
  stop.takenFrom_cut r.config.labels s.rest

theorem takenFrom_next (r : Reader) (s : State) : (r.next s).cut.TakenFrom s.rest :=
  r.takenFrom_nextAt .all s

theorem isSuffix_next (r : Reader) (s : State) : (r.next s).state.rest <:+ s.rest :=
  (r.takenFrom_next s).isSuffix

/-- The first chunk of an atom. -/
theorem takenFrom_opened (r : Reader) (s : State) :
    (Chunk.cut ⟨Text.trim (r.firstChunk s), r.opened s⟩).TakenFrom s.rest :=
  r.takenFrom_nextAt .all s

theorem isSuffix_opened (r : Reader) (s : State) : (r.opened s).rest <:+ s.rest :=
  (r.takenFrom_opened s).isSuffix

theorem takenFrom_skipToClosing (r : Reader) (s : State) :
    (r.skipToClosing s).2.cut.TakenFrom s.rest := by
  have hfirst := r.takenFrom_nextAt .closingBrackets s
  unfold skipToClosing
  dsimp only
  split
  · exact hfirst
  · exact (r.takenFrom_nextAt .closingBrackets _).of_isSuffix hfirst.isSuffix

theorem text_nextAt_closing {k : Text} (h : Text.trimFront s.rest = Block.atom.closing ++ k)
    (r : Reader) (stop : StopSet) : (r.nextAt stop s).text = Block.atom.closing := by
  rw [nextAt, StopSet.cut_closing _ _ h]
  rfl

/-- Getting past the rest of an atom ends at `]]` or at the end of the query. -/
theorem text_skipToClosing (r : Reader) (s : State) :
    (r.skipToClosing s).2.text = Block.atom.closing ∨ (r.skipToClosing s).2.text = [] := by
  have hbrackets {t : Text}
      (h : (firstDelimiter? StopSet.closingBrackets.anywhere t).isSome = true) :
      ∃ k, t = Block.atom.closing ++ k := by
    obtain ⟨parts, hparts⟩ := Option.isSome_iff_exists.1 h
    obtain ⟨mark, hmark, hmatch⟩ := List.exists_of_findSome?_eq_some hparts
    obtain rfl : mark = Block.atom.closing := List.mem_singleton.1 hmark
    exact ⟨parts.2, (append_of_matchFront? hmatch).trans
      (congrArg (· ++ parts.2) (fst_of_matchFront? (by decide +kernel) hmatch))⟩
  unfold skipToClosing
  dsimp only
  split
  · next htext => exact .inl htext
  · next htext =>
    cases hfound : firstDelimiter? StopSet.closingBrackets.anywhere (Text.trimFront s.rest) with
    | some parts =>
      -- the first chunk would have been the brackets
      obtain ⟨k, hk⟩ := hbrackets (Option.isSome_iff_exists.2 ⟨parts, hfound⟩)
      exact absurd (text_nextAt_closing hk r .closingBrackets) htext
    | none =>
      have hrest : (r.nextAt .closingBrackets s).state.rest =
          (StopSet.closingBrackets.splitBefore r.config.labels s.rest).2 := by
        have hnone : StopSet.closingBrackets.delimiter? r.config.labels true s.rest = none :=
          StopSet.delimiter?_start_eq_none hfound rfl
        show (StopSet.closingBrackets.cut r.config.labels s.rest).rest = _
        rw [StopSet.cut, hnone]
      by_cases hend : (r.nextAt .closingBrackets s).state.rest = []
      · refine .inr ?_
        show (StopSet.cut _ _ (r.nextAt .closingBrackets s).state.rest).trimmed.chunk = []
        rw [hend, StopSet.cut_nil]
        rfl
      · rw [hrest] at hend
        obtain ⟨k, hk⟩ := hbrackets (StopSet.isSome_of_splitBefore hend)
        exact .inl (text_nextAt_closing (hrest ▸ hk) r .closingBrackets)

-- ======================================================== the end of an atom

/-- How an atom ends that has come to the chunk `c`: in the state `t`, behind a
`]]` that is that chunk or comes later, or at the end of the query. Missing
brackets are reported in the last case, once, and in no other. -/
inductive Resumes (c : Chunk) (t : State) : Prop
  | handed (htext : c.text = Block.atom.closing) (hrest : t.rest = c.state.rest)
      (htimes : t.times .missingClosingBrackets = c.state.times .missingClosingBrackets)
  | sought (hrest : Block.atom.closing ++ t.rest <:+ c.state.rest)
      (htimes : t.times .missingClosingBrackets = c.state.times .missingClosingBrackets)
  | ended (hrest : t.rest = [])
      (htimes : t.times .missingClosingBrackets = c.state.times .missingClosingBrackets + 1)

theorem Resumes.isSuffix (h : Resumes c t) : t.rest <:+ c.state.rest := by
  cases h with
  | handed _ hrest => exact hrest ▸ List.suffix_rfl
  | sought hrest => exact (List.suffix_append _ _).trans hrest
  | ended hrest => exact hrest ▸ List.nil_suffix

/-- Only the rest of the query and the reports of missing brackets matter. -/
theorem Resumes.congr {c' : Chunk} {t' : State} (h : Resumes c t) (htext : c'.text = c.text)
    (hrest : c'.state.rest = c.state.rest)
    (htimes : c'.state.times .missingClosingBrackets = c.state.times .missingClosingBrackets)
    (hrest' : t'.rest = t.rest)
    (htimes' : t'.times .missingClosingBrackets = t.times .missingClosingBrackets) :
    Resumes c' t' := by
  cases h with
  | handed h₁ h₂ h₃ =>
    exact .handed (htext.trans h₁) (by rw [hrest', h₂, hrest]) (by rw [htimes', h₃, htimes])
  | sought h₁ h₂ => exact .sought (by rwa [hrest', hrest]) (by rw [htimes', h₂, htimes])
  | ended h₁ h₂ => exact .ended (hrest'.trans h₁) (by rw [htimes', h₂, htimes])

/-- An atom that has got past what stood at its end, and found `]]` or nothing
there. -/
theorem resumes_skipToClosing {s' : State} (hrest : s'.rest = (r.skipToClosing s).2.state.rest)
    (htimes : s'.times .missingClosingBrackets = s.times .missingClosingBrackets) (text : Text) :
    Resumes ⟨text, s⟩ (if (r.skipToClosing s).2.text.isEmpty then s'.report .missingClosingBrackets
      else s') := by
  have hskip := r.takenFrom_skipToClosing s
  rcases r.text_skipToClosing s with htext | htext
  · rw [htext]
    exact .sought (hrest ▸ hskip.closing htext) htimes
  · rw [htext]
    refine .ended (hrest.trans (hskip.finish htext)) ?_
    exact (times_report _ s').trans (congrArg (· + 1) htimes)

theorem resumes_expectClosing (h : c.text = [] → c.state.rest = []) :
    Resumes c (r.expectClosing c) := by
  unfold expectClosing
  split
  · next htext => exact .handed htext rfl rfl
  · split
    · next hempty => exact .ended (h (List.isEmpty_iff.1 hempty)) (times_report _ c.state)
    · dsimp only
      have hmisplaced : (c.state.report (.misplacedSymbol c.text)).times .missingClosingBrackets =
          c.state.times .missingClosingBrackets := times_report_of_ne (by simp) c.state
      refine (resumes_skipToClosing (s := c.state.report (.misplacedSymbol c.text)) rfl ?_
        c.text).congr rfl rfl hmisplaced.symm rfl rfl
      exact times_skipToClosing _ r _

/-- A label, if there is one, is past when the brackets are looked for. -/
theorem resumes_skipLabel (h : c.text = [] → c.state.rest = []) :
    Resumes c (r.expectClosing (r.skipLabel c)) := by
  by_cases hbar : Token.ofChunk c.text = .bar
  · let labelled := (r.skipToClosing c.state).2.state.report
      (.trailingContent ('|' :: (r.skipToClosing c.state).1))
    have hlabel : r.skipLabel c = ⟨(r.skipToClosing c.state).2.text, labelled⟩ := by
      rw [skipLabel, if_pos hbar]
    have htimes : labelled.times .missingClosingBrackets =
        c.state.times .missingClosingBrackets :=
      (times_report_of_ne (by simp) _).trans (times_skipToClosing _ r c.state)
    have hrest : labelled.rest = (r.skipToClosing c.state).2.state.rest := rfl
    have hresumes := resumes_skipToClosing hrest htimes c.text
    rw [hlabel]
    rcases r.text_skipToClosing c.state with htext | htext
    · rw [htext] at hresumes ⊢
      exact hresumes
    · rw [htext] at hresumes ⊢
      exact hresumes
  · rw [skipLabel, if_neg hbar]
    exact resumes_expectClosing h

theorem resumes_finishAtom (h : c.text = [] → c.state.rest = []) (mark : Nat)
    (restrict restricted : Bool) (result : Option Description) :
    Resumes c (r.finishAtom mark restrict restricted result c).state := by
  rw [state_finishAtom, beforeLeaving]
  generalize hbad : (if result.isNone && c.state.diagnostics.length == mark then
    c.state.report .badAtom else c.state) = bad
  have hbad : bad.rest = c.state.rest ∧
      bad.times .missingClosingBrackets = c.state.times .missingClosingBrackets := by
    rw [← hbad]
    split
    · exact ⟨rfl, times_report_of_ne (by simp) c.state⟩
    · exact ⟨rfl, rfl⟩
  let given : Chunk := ⟨c.text, (r.restrictAtom restrict restricted result bad).state⟩
  have hrest : given.state.rest = c.state.rest := (rest_restrictAtom ..).trans hbad.1
  have htimes : given.state.times .missingClosingBrackets =
      c.state.times .missingClosingBrackets :=
    (times_restrictAtom (by simp) r restrict restricted result bad).trans hbad.2
  have hresumes : Resumes given (r.expectClosing (r.skipLabel given)) :=
    resumes_skipLabel fun htext => hrest.trans (h htext)
  exact hresumes.congr rfl hrest.symm htimes.symm (rest_leaveAtom _) (times_leaveAtom (by simp) _)

-- ================================================= what stands inside an atom

theorem takenFrom_readClass (kind : ClassKind) (result : Option Description) (s : State) :
    (r.readClass kind result s).terminator.cut.TakenFrom s.rest := by
  fun_induction readClass r kind result s with
  | case1 result s name token h => exact r.takenFrom_next s
  | case2 result s name token h combined following hmore ih =>
    have hcombined : combined.state.rest = name.state.rest := rest_memberAt r kind result s
    have hfollowing := (r.takenFrom_next combined.state).isSuffix
    rw [hcombined] at hfollowing
    exact ih.of_isSuffix (hfollowing.trans (r.takenFrom_next s).isSuffix)
  | case3 result s name token h combined following hmore =>
    have hcombined : combined.state.rest = name.state.rest := rest_memberAt r kind result s
    refine (r.takenFrom_next combined.state).of_isSuffix ?_
    rw [hcombined]
    exact (r.takenFrom_next s).isSuffix

theorem takenFrom_readValueFrom (labels : ClassLabels) (openBrackets : Nat) (value t : Text) :
    Cut.TakenFrom ⟨(readValueFrom labels openBrackets value t).terminator,
      (readValueFrom labels openBrackets value t).rest⟩ t := by
  fun_induction readValueFrom labels openBrackets value t with
  | case1 openBrackets value t cut stillOpen h => exact StopSet.takenFrom_cut labels .atomContent t
  | case2 openBrackets value t cut stillOpen h ih =>
    exact ih.of_isSuffix (StopSet.takenFrom_cut labels .atomContent t).isSuffix

theorem isSuffix_finishAtom (h : c.cut.TakenFrom t.rest) (mark : Nat)
    (restrict restricted : Bool) (result : Option Description) :
    (r.finishAtom mark restrict restricted result c).state.rest <:+ t.rest :=
  (resumes_finishAtom h.finish mark restrict restricted result).isSuffix.trans h.isSuffix

/-- The chunk that a list of pages ends with. -/
theorem isSuffix_nextAt_articleAt (r : Reader) (result : Option Description) (c : Chunk) :
    (r.nextAt .atomContent (r.articleAt result c).state).state.rest <:+ c.state.rest :=
  rest_articleAt r result c ▸ (r.takenFrom_nextAt .atomContent _).isSuffix

theorem isSuffix_articleAtom (mark : Nat) (restrict : Bool) (result : Option Description)
    (c : Chunk) : (r.articleAtom mark restrict result c).state.rest <:+ c.state.rest := by
  fun_induction articleAtom r mark restrict result c with
  | case1 result c h =>
    exact isSuffix_finishAtom (r.takenFrom_skipToClosing _) mark restrict false none
  | case2 result c h condition problem hc combined following hmore ih =>
    have hfollowing := isSuffix_nextAt_articleAt r result c
    rw [articleAt, hc] at hfollowing
    exact ih.trans ((r.takenFrom_nextAt .atomContent following.state).isSuffix.trans hfollowing)
  | case3 result c h condition problem hc combined following hmore =>
    have hcombined : combined.state.rest = c.state.rest := by
      have := rest_articleAt r result c
      rwa [articleAt, hc] at this
    exact isSuffix_finishAtom (t := c.state)
      (hcombined ▸ r.takenFrom_nextAt .atomContent combined.state) mark restrict true _

theorem isSuffix_closeProperty (mark : Nat) (restrict : Bool) (c : Chain) {values : Members}
    (h : values.terminator.cut.TakenFrom t.rest) :
    (r.closeProperty mark restrict c values).state.rest <:+ t.rest := by
  unfold closeProperty
  split
  · exact isSuffix_finishAtom h _ _ _ _
  · exact isSuffix_finishAtom (c := ⟨_, values.terminator.state.report _⟩) h _ _ _ _

/-- Every reader leaves the end of what there was to read, and behind the values
of a property comes a chunk that was taken off it. -/
def takingInvariant : Invariant where
  subquery _ s o := o.state.rest <:+ s.rest
  alternatives _ _ _ s o := o.state.rest <:+ s.rest
  atom _ s o := o.state.rest <:+ s.rest
  property _ _ _ s o := o.state.rest <:+ s.rest
  values _ _ s m := m.terminator.cut.TakenFrom s.rest
  oneValue _ _ s m := m.terminator.cut.TakenFrom s.rest

theorem takingInvariant_preserved (r : Reader) : takingInvariant.Preserved r where
  subquery_nil restrict s _ := by
    show (r.conclude _ _ _).state.rest <:+ s.rest
    rw [rest_conclude, rest_leaveAtEnd]
    exact isSuffix_next r s
  subquery_alternatives restrict s _ h := h
  finish mark restrict p s _ := by
    show (r.conclude _ _ _).state.rest <:+ s.rest
    rw [rest_conclude, rest_leaveAtEnd, rest_finishAlternative]
    exact isSuffix_next r s
  openAtom mark restrict p s p' s' _ heq hatom ho := by
    have hadd := rest_addCondition r p (r.readAtom false (r.next s).state).val
    rw [heq] at hadd
    exact ho.trans (hadd ▸ hatom.trans (isSuffix_next r s))
  openQuery mark restrict p s p' s' _ heq hsub ho := by
    have hadd := rest_addCondition r p
      (r.readSubquery false ((r.next s).state.enter .subquery)).val
    rw [heq] at hadd
    exact ho.trans (hadd ▸ hsub.trans (isSuffix_next r s))
  or mark restrict p s p' s' _ heq ho := by
    have hfinish := rest_finishAlternative r p (r.next s).state
    rw [heq] at hfinish
    exact ho.trans (hfinish ▸ isSuffix_next r s)
  closeQuery mark restrict p s _ := by
    show (r.leaveSubquery _ _ _ _ _).state.rest <:+ s.rest
    rw [rest_leaveSubquery, rest_finishAlternative]
    exact isSuffix_next r s
  wildcard mark restrict p s _ ho := ho.trans (isSuffix_next r s)
  unexpected mark restrict p s s' _ heq ho := by
    subst heq
    exact ho.trans (isSuffix_next r s)
  classAtom kind restrict s _ :=
    (isSuffix_finishAtom (takenFrom_readClass kind none (r.opened s)) _ _ _ _).trans
      (isSuffix_opened r s)
  emptyAtom restrict s _ _ := isSuffix_finishAtom (r.takenFrom_opened s) _ _ _ _
  escapedAtom restrict s _ _ :=
    (isSuffix_articleAtom _ _ _ _).trans
      ((r.takenFrom_nextAt .atomContent (r.opened s)).isSuffix.trans (isSuffix_opened r s))
  articleAtom restrict s _ _ _ := (isSuffix_articleAtom _ _ _ _).trans (isSuffix_opened r s)
  propertyAtom restrict s _ _ ho :=
    ho.trans ((isSuffix_next r (r.opened s)).trans (isSuffix_opened r s))
  property_error mark restrict name s problem _ :=
    isSuffix_finishAtom (r.takenFrom_skipToClosing (s.report problem)) _ _ _ _
  property_ok mark restrict name s c _ hvalues := isSuffix_closeProperty mark restrict c hvalues
  values_more c result s result' s' _ _ hstate hfirst hothers := by
    subst hstate
    exact hothers.of_isSuffix hfirst.isSuffix
  values_last c result s _ hlast := hlast
  value_wildcard c result s _ := by
    refine (r.takenFrom_next _).of_isSuffix ?_
    rw [rest_combine]
    exact isSuffix_next r s
  value_openQuery c result s combined _ heq hsub := by
    subst heq
    refine (r.takenFrom_next _).of_isSuffix ?_
    rw [rest_addSubquery]
    exact hsub.trans (isSuffix_next r s)
  value_delimiter c result s _ _ := r.takenFrom_next s
  value_literal c result s _ := by
    have htext := takenFrom_readValueFrom r.config.labels 1 (r.next s).text (r.next s).state.rest
    show Cut.TakenFrom ⟨(r.literalAt s).terminator,
      (r.addLiteral c result (r.literalAt s) (r.next s).state).terminator.state.rest⟩ s.rest
    rw [rest_addLiteral]
    exact htext.of_isSuffix (isSuffix_next r s)

theorem takenFrom_readValues (r : Reader) (c : Chain) (result : Option Description)
    (s : State) : (r.readValues c result s).val.terminator.cut.TakenFrom s.rest :=
  (takingInvariant_preserved r).values c result s

-- ========================================================== atoms and their ends

/-- The second call is the end of the atom that the first one reads: not that of
an atom inside it. -/
inductive OwnClosing (r : Reader) : Call → Call → Prop
  | here {call : Call} {mark : Nat} {restrict restricted : Bool} {result : Option Description}
      {c : Chunk} (h : r.Makes call (.closing mark restrict restricted result c)) :
      OwnClosing r call (.closing mark restrict restricted result c)
  | articles {call closing : Call} {mark : Nat} {restrict : Bool} {result : Option Description}
      {c : Chunk} (h : r.Makes call (.articles mark restrict result c))
      (hend : OwnClosing r (.articles mark restrict result c) closing) : OwnClosing r call closing
  | property {call closing : Call} {mark : Nat} {restrict : Bool} {name : Text} {s : State}
      (h : r.Makes call (.property mark restrict name s))
      (hend : OwnClosing r (.property mark restrict name s) closing) : OwnClosing r call closing

section Own

variable {call closing : Call} {mark : Nat} {restrict restricted : Bool}
  {result : Option Description} {name : Text}

theorem Makes.closing_spec (h : r.Makes call (.closing mark restrict restricted result c)) :
    call.after r = (r.finishAtom mark restrict restricted result c).state ∧
      c.cut.TakenFrom call.before.rest := by
  cases h with
  | closeClass kind restrict s h =>
    exact ⟨congrArg Outcome.state (readAtom_class h),
      (takenFrom_readClass kind none (r.opened s)).of_isSuffix (isSuffix_opened r s)⟩
  | closeEmpty restrict s hclass h =>
    exact ⟨congrArg Outcome.state (readAtom_empty hclass h), r.takenFrom_opened s⟩
  | closeMisplaced mark restrict result c h =>
    exact ⟨congrArg Outcome.state (articleAtom_misplaced h), r.takenFrom_skipToClosing _⟩
  | closeArticles mark restrict result c h hlast =>
    refine ⟨congrArg Outcome.state (articleAtom_close h hlast), ?_⟩
    have htaken := r.takenFrom_nextAt .atomContent (r.articleAt result c).state
    rwa [rest_articleAt] at htaken
  | closeNameless mark restrict name s problem h =>
    exact ⟨congrArg Outcome.state (readProperty_error h), r.takenFrom_skipToClosing _⟩
  | closeProperty mark restrict name s c inner h hvalues =>
    refine ⟨congrArg Outcome.state ((readProperty_ok h).trans ?_), r.takenFrom_readValues c none s⟩
    rw [Reader.closeProperty, hvalues]
  | closeValueless mark restrict name s c h hvalues =>
    refine ⟨congrArg Outcome.state ((readProperty_ok h).trans ?_), r.takenFrom_readValues c none s⟩
    rw [Reader.closeProperty, hvalues]

theorem Makes.articles_spec (h : r.Makes call (.articles mark restrict result c)) :
    call.after r = (r.articleAtom mark restrict result c).state ∧
      c.state.rest <:+ call.before.rest := by
  cases h with
  | escapedArticles restrict s h hcolon =>
    exact ⟨congrArg Outcome.state (readAtom_escaped h.noClass h.notEmpty h.separator hcolon),
      (r.takenFrom_nextAt .atomContent (r.opened s)).isSuffix.trans (isSuffix_opened r s)⟩
  | articles restrict s hclass hempty h =>
    exact ⟨congrArg Outcome.state (readAtom_article hclass hempty h), isSuffix_opened r s⟩
  | behindArticle mark restrict result c h hmore =>
    exact ⟨congrArg Outcome.state (articleAtom_more h hmore),
      (r.takenFrom_nextAt .atomContent _).isSuffix.trans (isSuffix_nextAt_articleAt r result c)⟩

theorem Makes.property_spec (h : r.Makes call (.property mark restrict name s)) :
    call.after r = (r.readProperty mark restrict name s).val.state ∧
      s.rest <:+ call.before.rest := by
  cases h with
  | property restrict s h hcolon =>
    exact ⟨congrArg Outcome.state (readAtom_property h.noClass h.notEmpty h.separator hcolon),
      (isSuffix_next r _).trans (isSuffix_opened r s)⟩

/-- An atom is left as its end leaves it, and its end is given a chunk that was
taken off the text of the atom. -/
theorem OwnClosing.spec (h : r.OwnClosing call (.closing mark restrict restricted result c)) :
    call.after r = (r.finishAtom mark restrict restricted result c).state ∧
      c.cut.TakenFrom call.before.rest := by
  generalize hclosing : Call.closing mark restrict restricted result c = closing at h
  induction h with
  | here h =>
    cases hclosing
    exact h.closing_spec
  | articles h _ ih =>
    obtain ⟨hafter, htaken⟩ := ih hclosing
    exact ⟨h.articles_spec.1.trans hafter, htaken.of_isSuffix h.articles_spec.2⟩
  | property h _ ih =>
    obtain ⟨hafter, htaken⟩ := ih hclosing
    exact ⟨h.property_spec.1.trans hafter, htaken.of_isSuffix h.property_spec.2⟩

theorem exists_ownClosing_articles (r : Reader) (mark : Nat) (restrict : Bool)
    (result : Option Description) (c : Chunk) :
    ∃ closing, r.OwnClosing (.articles mark restrict result c) closing := by
  by_cases hquery : Token.ofChunk c.text = .openQuery
  · exact ⟨_, .here (.closeMisplaced mark restrict result c hquery)⟩
  · by_cases hmore : Token.ofChunk
        (r.nextAt .atomContent (r.articleAt result c).state).text = .bars
    · have hmakes := Makes.behindArticle mark restrict result c hquery hmore
      obtain ⟨closing, hclosing⟩ := exists_ownClosing_articles r mark restrict _ _
      exact ⟨closing, .articles hmakes hclosing⟩
    · exact ⟨_, .here (.closeArticles mark restrict result c hquery hmore)⟩
termination_by c.state.rest.length
decreasing_by exact Makes.length_lt_of_rank_eq (.single hmakes) rfl

theorem exists_ownClosing_property (r : Reader) (mark : Nat) (restrict : Bool) (name : Text)
    (s : State) : ∃ closing, r.OwnClosing (.property mark restrict name s) closing := by
  cases hchain : chain r.config name with
  | error problem => exact ⟨_, .here (.closeNameless mark restrict name s problem hchain)⟩
  | ok c =>
    cases hvalues : (r.readValues c none s).val.result with
    | none => exact ⟨_, .here (.closeValueless mark restrict name s c hchain hvalues)⟩
    | some inner => exact ⟨_, .here (.closeProperty mark restrict name s c inner hchain hvalues)⟩

theorem exists_ownClosing (r : Reader) (restrict : Bool) (s : State) :
    ∃ closing, r.OwnClosing (.atom restrict s) closing := by
  cases hclass : classKind? r.config (Text.trim (r.firstChunk s)) with
  | some kind => exact ⟨_, .here (.closeClass kind restrict s hclass)⟩
  | none =>
    by_cases hempty : StartsEmpty (Text.trim (r.firstChunk s))
    · exact ⟨_, .here (.closeEmpty restrict s hclass hempty)⟩
    · by_cases hseparator : Token.ofChunk (r.next (r.opened s)).text = .separator
      · by_cases hcolon : (r.firstChunk s).head? = some ':'
        · obtain ⟨closing, hclosing⟩ := exists_ownClosing_articles r s.diagnostics.length restrict
            none ⟨_, (r.nextAt .atomContent (r.opened s)).state⟩
          exact ⟨closing,
            .articles (.escapedArticles restrict s ⟨hclass, hempty, hseparator⟩ hcolon) hclosing⟩
        · obtain ⟨closing, hclosing⟩ := exists_ownClosing_property r s.diagnostics.length restrict
            (r.firstChunk s) (r.next (r.opened s)).state
          exact ⟨closing,
            .property (.property restrict s ⟨hclass, hempty, hseparator⟩ hcolon) hclosing⟩
      · obtain ⟨closing, hclosing⟩ := exists_ownClosing_articles r s.diagnostics.length restrict
          none ⟨_, r.opened s⟩
        exact ⟨closing, .articles (.articles restrict s hclass hempty hseparator) hclosing⟩

end Own

/-- **Every atom resynchronises.** It comes to an end of its own, in whose state
it is left. What it takes off the text ends with `]]`, which is the chunk that
the end is given or one that it gets to, and the end reports no missing
brackets; or nothing is left of the text, and the end reports missing brackets
once. -/
theorem atom_resumes (r : Reader) (restrict : Bool) (s : State) :
    (∃ closing, r.OwnClosing (.atom restrict s) closing) ∧
    ∀ mark restrict' restricted result c,
      r.OwnClosing (.atom restrict s) (.closing mark restrict' restricted result c) →
      let t := (r.readAtom restrict s).val.state
      t = (r.finishAtom mark restrict' restricted result c).state ∧
      ∃ reported, t.diagnostics = c.state.diagnostics ++ reported ∧
        ((Block.atom.closing ++ t.rest <:+ s.rest ∧
            (c.text = Block.atom.closing ∧ t.rest = c.state.rest ∨
              Block.atom.closing ++ t.rest <:+ c.state.rest) ∧
            reported.count .missingClosingBrackets = 0) ∨
          (t.rest = [] ∧ reported.count .missingClosingBrackets = 1)) := by
  refine ⟨exists_ownClosing r restrict s, fun mark restrict' restricted result c hclosing => ?_⟩
  obtain ⟨hafter, htaken⟩ := hclosing.spec
  have hresumes := resumes_finishAtom (r := r) htaken.finish mark restrict' restricted result
  have hprecedes := precedes_finishAtom r mark restrict' restricted result c
  rw [← hafter] at hresumes hprecedes
  refine ⟨hafter, ?_⟩
  cases hresumes with
  | handed htext hrest htimes =>
    obtain ⟨reported, happend, hcount⟩ := hprecedes.exists_count (n := 0) htimes
    refine ⟨reported, happend, .inl ⟨?_, .inl ⟨htext, hrest⟩, hcount⟩⟩
    show Block.atom.closing ++ (Call.after r (.atom restrict s)).rest <:+ s.rest
    rw [hrest]
    exact htaken.closing htext
  | sought hrest htimes =>
    obtain ⟨reported, happend, hcount⟩ := hprecedes.exists_count (n := 0) htimes
    exact ⟨reported, happend, .inl ⟨hrest.trans htaken.isSuffix, .inr hrest, hcount⟩⟩
  | ended hrest htimes =>
    obtain ⟨reported, happend, hcount⟩ := hprecedes.exists_count htimes
    exact ⟨reported, happend, .inr ⟨hrest, hcount⟩⟩

end Reader

end InlineQuery
