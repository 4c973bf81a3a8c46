/-
A call happens within the one that makes it.

The diagnostics that a call begins with were there in its caller or were added
since (`Makes.precedes_before`), and those that it ends with stay
(`Makes.precedes_after`). Whatever is reported at any depth of a query is
therefore among the diagnostics of the query (`Reached.precedes`), and in a
reading without diagnostics no call reports anything.
-/
import InlineQuery.Proofs.Reading.Calls
import InlineQuery.Proofs.Reading.Diagnostics

namespace InlineQuery

namespace Reader

open State

variable {r : Reader}

-- ===================================================== what the calls yield

theorem precedes_atomAt (r : Reader) (s : State) : s.Precedes (r.atomAt s).state :=
  precedes_readAtom r false (r.next s).state

theorem precedes_subqueryAt (r : Reader) (restrict : Bool) (s : State) :
    s.Precedes (r.subqueryAt restrict s).state :=
  precedes_readSubquery r restrict ((r.next s).state.enter .subquery)

theorem precedes_finishedAt (r : Reader) (p : Progress) (s : State) :
    s.Precedes (r.finishedAt p s).2 :=
  precedes_finishAlternative r p (r.next s).state

theorem precedes_articleAt (r : Reader) (result : Option Description) (c : Chunk) :
    c.state.Precedes (r.articleAt result c).state :=
  (precedes_reportAny _ c.state).trans (precedes_combine r _ _ _ _)

theorem precedes_memberAt (r : Reader) (kind : ClassKind) (result : Option Description)
    (s : State) : s.Precedes (r.memberAt kind result s).state := by
  unfold memberAt
  split
  · exact .refl s
  · exact Precedes.trans (precedes_reportAny _ (r.next s).state) (precedes_combine r _ _ _ _)

theorem precedes_readValues (r : Reader) (c : Chain) (result : Option Description) (s : State) :
    s.Precedes (r.readValues c result s).val.terminator.state :=
  (addingInvariant_preserved r).values c result s

theorem precedes_readOneValue (r : Reader) (c : Chain) (result : Option Description)
    (s : State) : s.Precedes (r.readOneValue c result s).val.terminator.state :=
  (addingInvariant_preserved r).oneValue c result s

theorem precedes_read (r : Reader) (query : Text) :
    (r.readSubquery false (.start query)).val.state.Precedes (r.read query).state := by
  unfold read
  dsimp only
  split
  · exact .refl _
  · exact precedes_combine r _ _ _ _

theorem precedes_readClass_member (r : Reader) (kind : ClassKind) (result : Option Description)
    {s : State} (h : (Token.ofChunk (r.next s).text).isDelimiter = false) :
    (r.memberAt kind result s).state.Precedes (r.readClass kind result s).terminator.state := by
  by_cases hmore : kind = .category ∧
      Token.ofChunk (r.next (r.memberAt kind result s).state).text = .bars
  · rw [readClass_more h hmore]
    exact precedes_readClass r kind _ (r.next _).state
  · rw [readClass_last h hmore]
    exact .refl _

theorem precedes_articleAtom_article (r : Reader) (mark : Nat) (restrict : Bool)
    (result : Option Description) {c : Chunk} (h : Token.ofChunk c.text ≠ .openQuery) :
    (r.articleAt result c).state.Precedes (r.articleAtom mark restrict result c).state := by
  by_cases hmore : Token.ofChunk (r.nextAt .atomContent (r.articleAt result c).state).text = .bars
  · rw [articleAtom_more h hmore]
    exact precedes_articleAtom r mark restrict _
      (r.nextAt .atomContent (r.nextAt .atomContent (r.articleAt result c).state).state)
  · rw [articleAtom_close h hmore]
    exact precedes_finishAtom r mark restrict true _ (r.nextAt .atomContent _)

variable {call call' : Call}

-- ============================================= calls within their callers

/-- Nothing that was reported is taken back until a call is made. -/
theorem Makes.precedes_before (h : r.Makes call call') : call.before.Precedes call'.before := by
  cases h with
  | defaults t => exact precedes_readSubquery r false (.start t)
  | concludeEmpty restrict s => exact precedes_leaveAtEnd (r.next s).state
  | addAtom mark restrict p s => exact precedes_atomAt r s
  | behindAtom mark restrict p s =>
    exact (precedes_atomAt r s).trans (precedes_addCondition r p _)
  | addSubquery mark restrict p s => exact precedes_subqueryAt r false s
  | behindSubquery mark restrict p s =>
    exact (precedes_subqueryAt r false s).trans (precedes_addCondition r p _)
  | behindOr mark restrict p s => exact precedes_finishedAt r p s
  | concludeAtClosing mark restrict p s => exact precedes_finishedAt r p s
  | concludeAtEnd mark restrict p s =>
    exact (precedes_finishedAt r p s).trans (precedes_leaveAtEnd _)
  | behindUnexpected mark restrict p s => exact (Precedes.refl (r.next s).state).report _
  | restrictEarlier p s defaults front => exact precedes_restrictAll r defaults front s
  | joinAlternative mark p s front => exact precedes_combineAll r none front s
  | closeClass kind restrict s => exact precedes_readClass r kind none (r.opened s)
  | addMember kind result s => exact precedes_reportAny _ (r.next s).state
  | behindMember kind result s => exact precedes_memberAt r kind result s
  | closeMisplaced mark restrict result c =>
    exact ((Precedes.refl c.state).report _).trans (.of_eq (diagnostics_skipToClosing r _))
  | addArticle mark restrict result c => exact precedes_reportAny _ c.state
  | behindArticle mark restrict result c => exact precedes_articleAt r result c
  | closeArticles mark restrict result c => exact precedes_articleAt r result c
  | closeNameless mark restrict name s problem =>
    exact ((Precedes.refl s).report problem).trans (.of_eq (diagnostics_skipToClosing r _))
  | closeProperty mark restrict name s c => exact precedes_readValues r c none s
  | closeValueless mark restrict name s c => exact (precedes_readValues r c none s).report _
  | behindValue c result s => exact precedes_readOneValue r c result s
  | addValueSubquery c result s => exact precedes_subqueryAt r true s
  | dropValueSubquery c result s => exact (precedes_subqueryAt r true s).report _
  | addLiteral c result s =>
    exact precedes_reportAny _ { (r.next s).state with rest := (r.literalAt s).rest }
  | leave mark restrict restricted result c =>
    exact precedes_beforeLeaving r mark restrict restricted result c
  | _ => exact .refl _

/-- Nothing that was reported in a call is taken back behind it. -/
theorem Makes.precedes_after (h : r.Makes call call') :
    (call'.after r).Precedes (call.after r) := by
  cases h with
  | whole t => exact precedes_read r t
  | defaults t h =>
    show State.Precedes _ (r.read t).state
    rw [read_combine h]
    exact .refl _
  | concludeEmpty restrict s h =>
    exact .of_eq (congrArg (·.state.diagnostics) (readSubquery_nil h))
  | alternatives restrict s h =>
    exact .of_eq (congrArg (·.state.diagnostics) (readSubquery_ne_nil h))
  | atom mark restrict p s h =>
    show State.Precedes _ (r.readAlternatives mark restrict p s).val.state
    rw [readAlternatives_openAtom h]
    exact (precedes_addCondition r p _).trans (precedes_readAlternatives r _ _ _ _)
  | addAtom mark restrict p s h =>
    show State.Precedes _ (r.readAlternatives mark restrict p s).val.state
    rw [readAlternatives_openAtom h]
    exact precedes_readAlternatives r _ _ _ _
  | behindAtom mark restrict p s h =>
    exact .of_eq (congrArg (·.state.diagnostics) (readAlternatives_openAtom h))
  | subquery mark restrict p s h =>
    show State.Precedes _ (r.readAlternatives mark restrict p s).val.state
    rw [readAlternatives_openQuery h]
    exact (precedes_addCondition r p _).trans (precedes_readAlternatives r _ _ _ _)
  | addSubquery mark restrict p s h =>
    show State.Precedes _ (r.readAlternatives mark restrict p s).val.state
    rw [readAlternatives_openQuery h]
    exact precedes_readAlternatives r _ _ _ _
  | behindSubquery mark restrict p s h =>
    exact .of_eq (congrArg (·.state.diagnostics) (readAlternatives_openQuery h))
  | finish mark restrict p s h =>
    show (r.finishedAt p s).2.Precedes (r.readAlternatives mark restrict p s).val.state
    simp only [List.mem_cons, List.not_mem_nil, or_false] at h
    rcases h with h | h | h | h
    · rw [readAlternatives_or (.inl h)]
      exact precedes_readAlternatives r _ _ _ _
    · rw [readAlternatives_or (.inr h)]
      exact precedes_readAlternatives r _ _ _ _
    · rw [readAlternatives_closeQuery h]
      exact precedes_leaveSubquery r _ _ _ _ _
    · rw [readAlternatives_finish h]
      exact (precedes_leaveAtEnd _).trans (precedes_conclude r _ _ _)
  | behindOr mark restrict p s h =>
    exact .of_eq (congrArg (·.state.diagnostics) (readAlternatives_or h))
  | concludeAtClosing mark restrict p s h hopen =>
    show State.Precedes _ (r.readAlternatives mark restrict p s).val.state
    rw [readAlternatives_closeQuery h, leaveSubquery]
    rw [finishedAt] at hopen
    rw [if_pos hopen]
    exact .refl _
  | concludeAtEnd mark restrict p s h =>
    exact .of_eq (congrArg (·.state.diagnostics) (readAlternatives_finish h))
  | behindWildcard mark restrict p s h =>
    exact .of_eq (congrArg (·.state.diagnostics) (readAlternatives_wildcard h))
  | behindUnexpected mark restrict p s h =>
    exact .of_eq (congrArg (·.state.diagnostics) (readAlternatives_unexpected h))
  | restrictEarlier p s defaults front back d hdefaults h hfinished =>
    show State.Precedes _ (r.finishAlternative p s).2
    simp only [finishAlternative, hdefaults, if_pos h, hfinished, state_restrictAll_append]
    exact precedes_restrictAll r defaults back _
  | restrictCurrent p s defaults hdefaults h =>
    show State.Precedes _ (r.finishAlternative p s).2
    have hnot : ¬ (p.restricted && !p.restrict) = true := by
      cases hrestricted : p.restricted with
      | false => exact Bool.false_ne_true
      | true => rw [hrestricted] at h; cases h
    simp only [finishAlternative, hdefaults, if_neg hnot, if_pos h]
    exact .refl _
  | joinAlternative mark p s front back d h hfinished =>
    show State.Precedes _ (r.conclude mark p s).state
    have hne : (p.finished.isEmpty || p.finished.any Option.isNone) = false := by
      rw [h, hfinished]
      cases front <;> rfl
    rw [conclude, if_neg (by rw [hne]; exact Bool.false_ne_true), hfinished, combineAll_append]
    exact precedes_combineAll r _ back _
  | members kind restrict s h =>
    show State.Precedes _ (r.readAtom restrict s).val.state
    rw [readAtom_class h]
    exact precedes_finishAtom r _ _ _ _ _
  | closeClass kind restrict s h =>
    exact .of_eq (congrArg (·.state.diagnostics) (readAtom_class h))
  | closeEmpty restrict s hclass h =>
    exact .of_eq (congrArg (·.state.diagnostics) (readAtom_empty hclass h))
  | escapedArticles restrict s h hcolon =>
    exact .of_eq (congrArg (·.state.diagnostics)
      (readAtom_escaped h.noClass h.notEmpty h.separator hcolon))
  | articles restrict s hclass hempty h =>
    exact .of_eq (congrArg (·.state.diagnostics) (readAtom_article hclass hempty h))
  | property restrict s h hcolon =>
    exact .of_eq (congrArg (·.state.diagnostics)
      (readAtom_property h.noClass h.notEmpty h.separator hcolon))
  | addMember kind result s h hwildcard =>
    show (r.combine _ _ _ _).state.Precedes (r.readClass kind result s).terminator.state
    have hmember := precedes_readClass_member r kind result h
    rwa [memberAt, if_neg hwildcard] at hmember
  | behindMember kind result s h hmore =>
    exact .of_eq (congrArg (·.terminator.state.diagnostics) (readClass_more h hmore))
  | closeMisplaced mark restrict result c h =>
    exact .of_eq (congrArg (·.state.diagnostics) (articleAtom_misplaced h))
  | addArticle mark restrict result c h => exact precedes_articleAtom_article r mark restrict result h
  | behindArticle mark restrict result c h hmore =>
    exact .of_eq (congrArg (·.state.diagnostics) (articleAtom_more h hmore))
  | closeArticles mark restrict result c h hlast =>
    exact .of_eq (congrArg (·.state.diagnostics) (articleAtom_last h hlast))
  | closeNameless mark restrict name s problem h =>
    exact .of_eq (congrArg (·.state.diagnostics) (readProperty_error h))
  | values mark restrict name s c h =>
    show State.Precedes _ (r.readProperty mark restrict name s).val.state
    rw [readProperty_ok h]
    exact precedes_closeProperty r mark restrict c _
  | closeProperty mark restrict name s c inner h hvalues =>
    show State.Precedes _ (r.readProperty mark restrict name s).val.state
    simp only [readProperty_ok h, Reader.closeProperty, hvalues]
    exact .refl _
  | closeValueless mark restrict name s c h hvalues =>
    show State.Precedes _ (r.readProperty mark restrict name s).val.state
    simp only [readProperty_ok h, Reader.closeProperty, hvalues]
    exact .refl _
  | oneValue c result s =>
    show State.Precedes _ (r.readValues c result s).val.terminator.state
    by_cases hbars : Token.ofChunk (r.readOneValue c result s).val.terminator.text = .bars
    · rw [readValues_more hbars]
      exact precedes_readValues r c _ _
    · rw [readValues_last hbars]
      exact .refl _
  | behindValue c result s h =>
    exact .of_eq (congrArg (·.terminator.state.diagnostics) (readValues_more h))
  | addWildcard c result s h =>
    exact .of_eq (congrArg (·.terminator.state.diagnostics) (readOneValue_wildcard h))
  | valueSubquery c result s h =>
    show State.Precedes _ (r.readOneValue c result s).val.terminator.state
    rw [readOneValue_openQuery h]
    exact precedes_addSubquery r c result _
  | addValueSubquery c result s h htype =>
    show State.Precedes _ (r.readOneValue c result s).val.terminator.state
    rw [readOneValue_openQuery h, Reader.addSubquery, if_pos htype]
    exact .refl _
  | dropValueSubquery c result s h htype =>
    show State.Precedes _ (r.readOneValue c result s).val.terminator.state
    rw [readOneValue_openQuery h, Reader.addSubquery, if_neg htype]
    exact .refl _
  | valueText c result s h =>
    show State.Precedes (r.next s).state (r.readOneValue c result s).val.terminator.state
    rw [readOneValue_literal h]
    exact precedes_addLiteral r c result _ _
  | addLiteral c result s h =>
    exact .of_eq (congrArg (·.terminator.state.diagnostics) (readOneValue_literal h))
  | behindBracket => exact .refl _
  | restrictAtom mark restrict d defaults c hdefaults h =>
    show State.Precedes _ (r.finishAtom mark restrict false (some d) c).state
    have hstate : (r.combine .conjunctive (some d) (some defaults) c.state).state =
        (r.restrictAtom restrict false (some d) c.state).state := by
      simp only [Reader.restrictAtom, hdefaults, h]
      rfl
    show (r.combine .conjunctive (some d) (some defaults) c.state).state.Precedes _
    rw [hstate]
    exact precedes_closing r c.text _
  | leave mark restrict restricted result c => exact .refl _

-- =================================================== calls made in a reading

/-- Diagnostics are only added while a call runs. -/
theorem Call.precedes (r : Reader) (call : Call) : call.before.Precedes (call.after r) := by
  cases call with
  | query t => exact (precedes_readSubquery r false (.start t)).trans (precedes_read r t)
  | subquery restrict s => exact precedes_readSubquery r restrict s
  | alternatives mark restrict p s => exact precedes_readAlternatives r mark restrict p s
  | finishing p s => exact precedes_finishAlternative r p s
  | concluding mark p s => exact precedes_conclude r mark p s
  | atom restrict s => exact precedes_readAtom r restrict s
  | property mark restrict name s =>
    exact (addingInvariant_preserved r).property mark restrict name s
  | values c result s => exact precedes_readValues r c result s
  | oneValue c result s => exact precedes_readOneValue r c result s
  | valueText => exact .refl _
  | members kind result s => exact precedes_readClass r kind result s
  | articles mark restrict result c => exact precedes_articleAtom r mark restrict result c
  | closing mark restrict restricted result c =>
    exact precedes_finishAtom r mark restrict restricted result c
  | combination mode current incoming s => exact precedes_combine r mode current incoming s
  | leaving s => exact precedes_leaveAtom s

/-- What is reported in a call that is made in reading a query is among the
diagnostics of the query. -/
theorem Reached.precedes {query : Text} (h : r.Reached query call) :
    (call.after r).Precedes (r.read query).state := by
  induction h with
  | refl => exact .refl _
  | tail _ h ih => exact h.precedes_after.trans ih

/-- In reading a query without diagnostics, no call reports anything. -/
theorem Reached.diagnostics_eq_nil {query : Text} (h : r.Reached query call)
    (hquiet : (r.read query).state.diagnostics = []) :
    (call.after r).diagnostics = [] ∧ call.before.diagnostics = [] := by
  have hafter : (call.after r).diagnostics <+: [] := hquiet ▸ h.precedes
  have hbefore : call.before.diagnostics <+: [] := List.IsPrefix.trans (Call.precedes r call) hafter
  exact ⟨List.prefix_nil.1 hafter, List.prefix_nil.1 hbefore⟩

end Reader

end InlineQuery
