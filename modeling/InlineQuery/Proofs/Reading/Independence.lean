/-
What a part of a query means does not depend on where it stands.

An atom or a subquery that is read without a report is read the same way in any
context: it has the same condition, and the reader goes on behind it with what
stood behind it, with the blocks that were open and the diagnostics that there
were (`contextInvariant`).

# Between atoms

Alternatives are read up to a `</q>` or to the end of the query, and what
happens there does depend on the context. So of them only the way is compared:
in any context a reader gets from the beginning of a quiet row of alternatives
to its end with the same alternatives on its hands, behind those that it may
have had before (`Leads`).

The end of a query may be a word, and a word goes on up to the next delimiter.
Hence a query that ends with one is read the same way only in front of a
delimiter (`Context.Bounded`).
-/
import InlineQuery.Proofs.Description.Reachable
import InlineQuery.Proofs.Reading.Context

namespace InlineQuery

namespace Reader

open State

variable {r : Reader} {s : State}

-- ==================================================================== atoms

theorem rest_ne_nil_of_readClass {kind : ClassKind} {result : Option Description}
    (h : (r.readClass kind result s).terminator.text ≠ []) : s.rest ≠ [] := by
  by_cases hdelimiter : (Token.ofChunk (r.next s).text).isDelimiter = true
  · rw [readClass_end hdelimiter] at h
    exact rest_ne_nil_of_next h
  · have hne : (r.next s).text ≠ [] := by
      intro hnil
      rw [hnil] at hdelimiter
      exact hdelimiter rfl
    exact rest_ne_nil_of_next hne

theorem readAtom_class_put (hr : r.Unrestricted) {kind : ClassKind} {restrict : Bool}
    (hclass : classKind? r.config (Text.trim (r.firstChunk s)) = some kind)
    (hquiet : (r.classAtom kind s.diagnostics.length restrict (r.opened s)).state.diagnostics =
      s.diagnostics) (ctx : Context) :
    (r.readAtom restrict (ctx.put s.rest)).val =
      ctx.outcome (r.classAtom kind s.diagnostics.length restrict (r.opened s)) := by
  obtain ⟨hquietMembers, hquietFinish⟩ := (precedes_readClass r kind none (r.opened s)).quiet
    (precedes_finishAtom r _ restrict false _ _) hquiet
  have hmark : s.diagnostics.length =
      (r.readClass kind none (r.opened s)).terminator.state.diagnostics.length :=
    congrArg List.length hquietMembers.symm
  have hclosing := (finishAtom_quiet hmark hquietFinish).2
  have hend : IsEnding (r.readClass kind none (r.opened s)).terminator.text :=
    hclosing ▸ IsEnding.closing
  obtain ⟨hfirst, hopened⟩ := firstChunk_put hr (rest_ne_nil_of_readClass hend.ne_nil) ctx
  rw [readAtom_class (by rw [hfirst]; exact hclass), hopened, classAtom,
    readClass_put hr kind none (r.opened s) hquietMembers hend]
  exact finishAtom_put hr hmark hquietFinish ctx _

theorem readAtom_escaped_put (hr : r.Unrestricted) {restrict : Bool} (h : r.StartsProperty s)
    (hcolon : (r.firstChunk s).head? = some ':')
    (hquiet : (r.articleAtom s.diagnostics.length restrict none
      ⟨Text.trim (r.firstChunk s ++ (r.nextAt .atomContent (r.opened s)).text),
        (r.nextAt .atomContent (r.opened s)).state⟩).state.diagnostics = s.diagnostics)
    (ctx : Context) :
    (r.readAtom restrict (ctx.put s.rest)).val =
      ctx.outcome (r.articleAtom s.diagnostics.length restrict none
        ⟨Text.trim (r.firstChunk s ++ (r.nextAt .atomContent (r.opened s)).text),
          (r.nextAt .atomContent (r.opened s)).state⟩) := by
  have hseparator := Token.ne_nil_of_ofChunk h.separator nofun
  obtain ⟨hfirst, hopened⟩ := firstChunk_put hr (rest_ne_nil_of_next hseparator) ctx
  have hnext := next_put_mark hr h.separator trivial (ctx.enter .atom)
  have hrest : (r.nextAt .atomContent (r.opened s)).state.rest ≠ [] := by
    have hend := (articleAtom_quiet (c := ⟨_, (r.nextAt .atomContent (r.opened s)).state⟩)
      rfl hquiet).2.2
    have hrest := rest_ne_nil_of_nextAt .atomContent hend.ne_nil
    rwa [rest_articleAt] at hrest
  have hcontent := nextAt_put hr .atomContent (.inl hrest) (ctx.enter .atom)
  rw [readAtom_escaped (by rw [hfirst]; exact h.noClass) (by rw [hfirst]; exact h.notEmpty)
    (by rw [hopened, hnext]; exact h.separator) (by rw [hfirst]; exact hcolon), hfirst, hopened,
    hcontent]
  exact articleAtom_put hr s.diagnostics.length restrict none
    ⟨_, (r.nextAt .atomContent (r.opened s)).state⟩ rfl hquiet ctx _

theorem readAtom_article_put (hr : r.Unrestricted) {restrict : Bool}
    (hclass : classKind? r.config (Text.trim (r.firstChunk s)) = none)
    (hempty : ¬ StartsEmpty (Text.trim (r.firstChunk s)))
    (h : Token.ofChunk (r.next (r.opened s)).text ≠ .separator)
    (hquiet : (r.articleAtom s.diagnostics.length restrict none
      ⟨Text.trim (r.firstChunk s), r.opened s⟩).state.diagnostics = s.diagnostics)
    (ctx : Context) :
    (r.readAtom restrict (ctx.put s.rest)).val =
      ctx.outcome (r.articleAtom s.diagnostics.length restrict none
        ⟨Text.trim (r.firstChunk s), r.opened s⟩) := by
  have hend : IsEnding (r.nextAt .atomContent (r.opened s)).text := by
    have hend := (articleAtom_quiet (c := ⟨_, r.opened s⟩) rfl hquiet).2.2
    rwa [text_nextAt_congr .atomContent (rest_articleAt r none _)] at hend
  obtain ⟨hfirst, hopened⟩ := firstChunk_put hr (rest_ne_nil_of_nextAt .atomContent hend.ne_nil) ctx
  have hnext := next_put hr (.inr (by rw [text_next_of_isEnding hr hend]; exact hend.isMark))
    (ctx.enter .atom)
  rw [readAtom_article (by rw [hfirst]; exact hclass) (by rw [hfirst]; exact hempty)
    (by rw [hopened, hnext]; exact h), hfirst, hopened]
  exact articleAtom_put hr s.diagnostics.length restrict none ⟨_, r.opened s⟩ rfl hquiet ctx _

-- ============================================================= alternatives

theorem Permissive.keeps_wellFormed (hr : r.Permissive) :
    r.Keeps Description.WellFormed Description.WellFormed :=
  Reader.keeps_wellFormed (by rw [hr.defaults]; exact every_none)

/-- There are alternatives, and each of them has a condition. -/
def Progress.Complete (p : Progress) : Prop :=
  (p.finished.isEmpty || p.finished.any Option.isNone) = false

/-- Only complete alternatives are concluded without a report. -/
theorem conclude_quiet {mark : Nat} {p : Progress} (hmark : mark = s.diagnostics.length)
    (hquiet : (r.conclude mark p s).state.diagnostics = s.diagnostics) : p.Complete := by
  cases hlost : (p.finished.isEmpty || p.finished.any Option.isNone) with
  | false => exact hlost
  | true =>
    have hreported : (r.conclude mark p s).state = s.report .emptySubquery := by
      simp [conclude, hlost, hmark]
    rw [hreported] at hquiet
    exact absurd hquiet (Precedes.not_quiet_of_report _ (.refl _))

/-- The disjunction of the alternatives. -/
def joined (ds : List (Option Description)) : Option Description :=
  ds.foldl (Option.merge (Mode.merge .disjunctive)) none

theorem Progress.Complete.isSome {p : Progress} (h : p.Complete) :
    (joined p.finished).isSome = true := by
  have hfold (d : Description) (ds : List (Option Description)) :
      (ds.foldl (Option.merge (Mode.merge .disjunctive)) (some d)).isSome = true := by
    induction ds generalizing d with
    | nil => rfl
    | cons e ds ih =>
      cases e with
      | none => exact ih d
      | some e => exact ih _
  unfold Progress.Complete at h
  cases hfinished : p.finished with
  | nil =>
    rw [hfinished] at h
    cases h
  | cons d ds =>
    cases d with
    | none =>
      rw [hfinished] at h
      cases h
    | some d => exact hfold d ds

theorem conclude_of_permitted (hall : ∀ feature, r.config.features.has feature = true)
    (mark : Nat) {p : Progress} (h : p.Complete) (s : State) :
    r.conclude mark p s = ⟨joined p.finished, p.restrict, s⟩ := by
  rw [conclude, if_neg (by rw [h]; exact Bool.false_ne_true), combineAll_of_permitted hall]
  rfl

theorem Permissive.conclude (hr : r.Permissive) (mark : Nat) {p : Progress}
    (h : p.Complete) (s : State) :
    r.conclude mark p s = ⟨joined p.finished, p.restrict, s⟩ :=
  conclude_of_permitted hr.features mark h s

/-- The alternatives behind others. -/
def Progress.behind (front : List (Option Description)) (p : Progress) : Progress :=
  { p with finished := front ++ p.finished }

@[simp] theorem Progress.behind_nil (p : Progress) : p.behind [] = p := rfl

theorem Progress.ended_behind (front : List (Option Description)) (p : Progress) :
    (p.behind front).ended = p.ended.behind front := by
  simp only [Progress.behind, Progress.ended, List.append_assoc]

/-- From the text `t`, a reader gets to the text `b` in it, with the same
alternatives in any context. Where nothing is left of the text, a delimiter has
to come next. -/
structure Leads (r : Reader) (restrict : Bool) (p : Progress) (t : Text) (p' : Progress)
    (b : Text) : Prop where
  length_le : b.length ≤ t.length
  restrict_eq : p'.restrict = p.restrict
  wellFormed : p.All Description.WellFormed → p'.All Description.WellFormed
  reads : ∀ (ctx : Context) (front : List (Option Description)) (mark : Nat),
    (b = [] → ctx.Bounded) →
    (r.readAlternatives mark restrict (p.behind front) (ctx.put t)).val =
      (r.readAlternatives mark restrict (p'.behind front) (ctx.put b)).val

namespace Leads

variable {restrict : Bool} {p p' p'' : Progress} {t b b' : Text}

theorem refl (p : Progress) (t : Text) : r.Leads restrict p t p t :=
  ⟨Nat.le_refl _, rfl, id, fun _ _ _ _ => rfl⟩

theorem trans (h : r.Leads restrict p t p' b) (h' : r.Leads restrict p' b p'' b') :
    r.Leads restrict p t p'' b' := by
  refine ⟨Nat.le_trans h'.length_le h.length_le, h'.restrict_eq.trans h.restrict_eq,
    fun hp => h'.wellFormed (h.wellFormed hp), ?_⟩
  intro ctx front mark hctx
  have hmiddle : b = [] → ctx.Bounded := by
    intro hnil
    have hle := h'.length_le
    rw [hnil] at hle
    exact hctx (List.length_eq_zero_iff.1 (Nat.le_zero.1 hle))
  rw [h.reads ctx front mark hmiddle, h'.reads ctx front mark hctx]

/-- The reading itself is one in a context, with nothing behind. -/
theorem reads_here (h : r.Leads restrict p t p' b) (front : List (Option Description))
    (blocks : List Block) (diagnostics : List Diagnostic) (mark : Nat) :
    (r.readAlternatives mark restrict (p.behind front) ⟨t, blocks, diagnostics⟩).val =
      (r.readAlternatives mark restrict (p'.behind front) ⟨b, blocks, diagnostics⟩).val := by
  have hput (t : Text) :
      (⟨[], blocks, diagnostics⟩ : Context).put t = ⟨t, blocks, diagnostics⟩ := by
    rw [Context.put, List.append_nil]
  have hreads := h.reads ⟨[], blocks, diagnostics⟩ front mark (fun _ => .inl rfl)
  rwa [hput, hput] at hreads

/-- A condition is added to the alternative under way. -/
theorem condition (hr : r.Unrestricted) {o : Outcome}
    (hle : o.state.rest.length ≤ s.rest.length)
    (hoffered : Every Description.WellFormed o.result)
    (hreads : ∀ (ctx : Context) (p : Progress) (mark : Nat),
      (r.readAlternatives mark restrict p (ctx.put s.rest)).val =
        (r.readAlternatives mark restrict (r.addCondition p (ctx.outcome o)).1
          (r.addCondition p (ctx.outcome o)).2).val) (p : Progress) :
    r.Leads restrict p s.rest (r.addCondition p o).1 o.state.rest := by
  refine ⟨hle, rfl, fun hp => hr.keeps_wellFormed.sorts.addCondition hp hoffered, ?_⟩
  intro ctx front mark _
  rw [hreads, hr.addCondition, hr.addCondition]
  rfl

theorem openAtom (hr : r.Unrestricted) (h : Token.ofChunk (r.next s).text = .openAtom)
    (hput : ∀ ctx : Context,
      (r.readAtom false (ctx.put (r.next s).state.rest)).val = ctx.outcome (r.atomAt s))
    (p : Progress) :
    r.Leads restrict p s.rest (r.addCondition p (r.atomAt s)).1 (r.atomAt s).state.rest := by
  refine condition hr ?_ (hr.keeps_wellFormed.preserved.atom false _ rfl) ?_ p
  · exact Nat.le_trans (r.readAtom false (r.next s).state).property (next_length_le r s)
  · intro ctx p mark
    have hnext := next_put_mark hr h trivial ctx
    rw [readAlternatives_openAtom (by rw [hnext]; exact h), hnext, Context.state_chunk, hput]
    rfl

theorem openQuery (hr : r.Unrestricted) (h : Token.ofChunk (r.next s).text = .openQuery)
    (hput : ∀ ctx : Context,
      (r.readSubquery false ((ctx.enter .subquery).put (r.next s).state.rest)).val =
        ctx.outcome (r.subqueryAt false s)) (p : Progress) :
    r.Leads restrict p s.rest (r.addCondition p (r.subqueryAt false s)).1
      (r.subqueryAt false s).state.rest := by
  refine condition hr ?_ (hr.keeps_wellFormed.preserved.subquery false _) ?_ p
  · exact Nat.le_trans (r.readSubquery false ((r.next s).state.enter .subquery)).property
      (next_length_le r s)
  · intro ctx p mark
    have hnext := next_put_mark hr h trivial ctx
    rw [readAlternatives_openQuery (by rw [hnext]; exact h), hnext, Context.state_chunk,
      Context.enter_put, hput]
    rfl

/-- Bars and the word `OR` begin another alternative. -/
theorem or (hr : r.Unrestricted)
    (h : Token.ofChunk (r.next s).text = .bars ∨ Token.ofChunk (r.next s).text = .orWord)
    (p : Progress) :
    r.Leads restrict p s.rest p.ended (r.next s).state.rest := by
  refine ⟨next_length_le r s, rfl,
    fun hp => ⟨every_none, every_append hp.finished hp.current⟩, ?_⟩
  intro ctx front mark hctx
  have hnext : r.next (ctx.put s.rest) = ctx.chunk (r.next s) := by
    rcases h with h | h
    · exact next_put_mark hr h trivial ctx
    · have hspells := Token.spells_ofChunk (r.next s).text
      rw [h] at hspells
      exact next_put_word hr (.inl hspells) hctx
  rw [readAlternatives_or (by rw [hnext]; exact h), hnext, hr.finishAlternative,
    Progress.ended_behind]
  rfl

theorem wildcard (hr : r.Unrestricted) (h : Token.ofChunk (r.next s).text = .wildcard)
    (p : Progress) : r.Leads restrict p s.rest p (r.next s).state.rest := by
  refine ⟨next_length_le r s, rfl, id, ?_⟩
  intro ctx front mark hctx
  have hspells := Token.spells_ofChunk (r.next s).text
  rw [h] at hspells
  have hnext := next_put_word hr (.inr hspells) hctx
  rw [readAlternatives_wildcard (by rw [hnext]; exact h), hnext]
  rfl

end Leads

-- =============================================================== subqueries

/-- The end of the query inside of a subquery is reported. -/
theorem not_quiet_leaveAtEnd (hblocks : s.blocks.head? = some .subquery) (mark : Nat)
    (p : Progress) : (r.conclude mark p (leaveAtEnd s)).state.diagnostics ≠ s.diagnostics := by
  rw [leaveAtEnd, if_pos hblocks]
  exact Precedes.not_quiet_of_report (s := s.leave) _ (precedes_conclude r mark p _)

theorem text_next_ne_nil (hr : r.Unrestricted) (hblocks : s.blocks.head? = some .subquery)
    {mark : Nat} {restrict : Bool} {p : Progress}
    (hquiet : (r.readAlternatives mark restrict p s).val.state.diagnostics = s.diagnostics) :
    (r.next s).text ≠ [] := by
  intro hnil
  rw [readAlternatives_finish (Token.ofChunk_eq_finish_iff.2 hnil), hr.finishAlternative] at hquiet
  exact not_quiet_leaveAtEnd (s := (r.next s).state) hblocks mark _ hquiet

/-- Where there is a chunk to be read, there is one in front of any text. -/
theorem text_next_put_ne_nil (hr : r.Unrestricted) (h : (r.next s).text ≠ []) (ctx : Context) :
    (r.next (ctx.put s.rest)).text ≠ [] := by
  intro hnil
  have hblank : Text.isBlankText (s.rest ++ ctx.behind) = true := (rest_next_of_nil hnil).1
  rw [Text.isBlankText, List.all_append, Bool.and_eq_true] at hblank
  exact h (text_next_end hr.labels (Text.trimFront_eq_nil_iff.2 hblank.1))

/-- A `</q>` concludes the subquery that is open. -/
theorem Permissive.readAlternatives_closing (hr : r.Permissive)
    (hclose : Token.ofChunk (r.next s).text = .closeQuery)
    (hblocks : s.blocks.head? = some .subquery) (mark : Nat) (restrict : Bool) (p : Progress) :
    (r.readAlternatives mark restrict p s).val =
      r.conclude mark p.ended (r.next s).state.leave := by
  rw [readAlternatives_closeQuery hclose, hr.finishAlternative, leaveSubquery]
  exact if_pos hblocks

/-- A reader that leaves a subquery does so in the same way in any context. -/
theorem readAlternatives_closing_put (hr : r.Unrestricted) {mark : Nat} {restrict : Bool}
    {p : Progress} (hclose : Token.ofChunk (r.next s).text = .closeQuery)
    (hblocks : s.blocks.head? = some .subquery) (hmark : mark = s.diagnostics.length)
    (hquiet : (r.readAlternatives mark restrict p s).val.state.diagnostics = s.diagnostics)
    (ctx : Context) (mark' : Nat) :
    (r.readAlternatives mark' restrict p ((ctx.enter .subquery).put s.rest)).val =
      ctx.outcome (r.readAlternatives mark restrict p s).val := by
  have hnext := next_put_mark hr hclose trivial (ctx.enter .subquery)
  rw [hr.readAlternatives_closing hclose hblocks] at hquiet ⊢
  rw [hr.readAlternatives_closing (by rw [hnext]; exact hclose) rfl, hnext]
  have hcomplete := conclude_quiet (s := (r.next s).state.leave) hmark hquiet
  rw [hr.conclude mark hcomplete, hr.conclude mark' hcomplete]
  rfl

-- =================================================================== values

/-- A wildcard and what is behind it are read the same way. -/
theorem readOneValue_wildcard_put (hr : r.Unrestricted) {c : Chain} {result : Option Description}
    (h : Token.ofChunk (r.next s).text = .wildcard)
    (hend : IsEnding (r.next (r.next s).state).text) (ctx : Context) :
    (r.readOneValue c result (ctx.put s.rest)).val =
      ctx.members ⟨result.merge (Mode.merge .disjunctive) (some (r.wildcard c.valueType)),
        r.next (r.next s).state⟩ := by
  have hnext := next_put hr (.inl (rest_ne_nil_of_next hend.ne_nil)) ctx
  have hfollowing := next_put hr (.inr hend.isMark) ctx
  rw [readOneValue_wildcard (by rw [hnext]; exact h), hr.combine, hnext, Context.state_chunk]
  dsimp only
  rw [hfollowing]
  rfl

/-- A subquery as a value and what is behind it are read the same way. -/
theorem readOneValue_openQuery_put (hr : r.Unrestricted) {c : Chain}
    {result : Option Description} (h : Token.ofChunk (r.next s).text = .openQuery)
    (htype : c.valueType = .page)
    (hsub : ∀ ctx : Context,
      (r.readSubquery true ((ctx.enter .subquery).put (r.next s).state.rest)).val =
        ctx.outcome (r.subqueryAt true s))
    (hend : IsEnding (r.next (r.subqueryAt true s).state).text) (ctx : Context) :
    (r.readOneValue c result (ctx.put s.rest)).val =
      ctx.members ⟨result.merge (Mode.merge .disjunctive) (r.subqueryAt true s).result,
        r.next (r.subqueryAt true s).state⟩ := by
  have hnext := next_put_mark hr h trivial ctx
  have hfollowing := next_put hr (.inr hend.isMark) ctx
  rw [readOneValue_openQuery (by rw [hnext]; exact h), addSubquery, if_pos htype, hr.combine,
    hnext, Context.state_chunk, Context.enter_put, hsub]
  dsimp only [Context.outcome]
  rw [hfollowing]
  rfl

theorem Permissive.addLiteral (hr : r.Permissive) (c : Chain) (result : Option Description)
    (text : ValueText) (s : State) :
    r.addLiteral c result text s =
      ⟨result.merge (Mode.merge .disjunctive)
          (some (value r.config c.last c.valueType text.value).1),
        ⟨text.terminator, reportAny (value r.config c.last c.valueType text.value).2
          { s with rest := text.rest }⟩⟩ := by
  unfold Reader.addLiteral
  dsimp only
  rw [hr.combine]

/-- A value that is written out is read the same way up to its end. -/
theorem readOneValue_literal_put (hr : r.Unrestricted) {c : Chain} {result : Option Description}
    (h : Token.ofChunk (r.next s).text = .text ∨ Token.ofChunk (r.next s).text = .orWord)
    (hquiet : (r.addLiteral c result (r.literalAt s)
      (r.next s).state).terminator.state.diagnostics = s.diagnostics)
    (hend : IsEnding (r.literalAt s).terminator) (ctx : Context) :
    (r.readOneValue c result (ctx.put s.rest)).val =
      ctx.members (r.addLiteral c result (r.literalAt s) (r.next s).state) := by
  have hrest : (r.next s).state.rest ≠ [] := by
    intro hnil
    rw [literalAt, readValue, hnil, readValueFrom_nil] at hend
    exact hend.ne_nil rfl
  have hnext := next_put hr (.inl hrest) ctx
  have htext : readValue r.config.labels (r.next s).text ((r.next s).state.rest ++ ctx.behind) =
      { r.literalAt s with rest := (r.literalAt s).rest ++ ctx.behind } := by
    unfold literalAt readValue at hend ⊢
    rw [hr.labels] at hend ⊢
    exact readValueFrom_append 1 (r.next s).text (r.next s).state.rest hend ctx.behind
  rw [readOneValue_literal (by rw [hnext]; exact h), hnext]
  change r.addLiteral c result
    (readValue r.config.labels (r.next s).text ((r.next s).state.rest ++ ctx.behind)) _ = _
  rw [htext]
  rw [hr.addLiteral] at hquiet
  rw [hr.addLiteral, hr.addLiteral]
  cases hproblem : (value r.config c.last c.valueType (r.literalAt s).value).2 with
  | none => rfl
  | some problem =>
    rw [hproblem] at hquiet
    exact absurd hquiet (Precedes.not_quiet_of_report
      (s := { (r.next s).state with rest := (r.literalAt s).rest }) problem (.refl _))

-- ============================================================= all readings

/-- The alternatives end here: the subquery is closed, or nothing is left. -/
def EndsAt (r : Reader) (b : Text) : Prop :=
  Token.ofChunk (Cut.next r.config.labels b).chunk = .finish ∨
    Token.ofChunk (Cut.next r.config.labels b).chunk = .closeQuery

/-- A reading without a report is the same in any context. -/
def contextInvariant (r : Reader) : Invariant where
  subquery restrict s o := s.blocks.head? = some .subquery → o.state.diagnostics = s.diagnostics →
    ∀ ctx : Context,
      (r.readSubquery restrict ((ctx.enter .subquery).put s.rest)).val = ctx.outcome o
  alternatives _ restrict p s o := o.state.diagnostics = s.diagnostics →
    ∃ p' b, r.Leads restrict p s.rest p' b ∧ r.EndsAt b
  atom restrict s o := o.state.diagnostics = s.diagnostics →
    ∀ ctx : Context, (r.readAtom restrict (ctx.put s.rest)).val = ctx.outcome o
  property mark restrict name s o := mark = s.diagnostics.length →
    o.state.diagnostics = s.diagnostics → ∀ (ctx : Context) (mark' : Nat),
      (r.readProperty mark' restrict name ((ctx.enter .atom).put s.rest)).val = ctx.outcome o
  values c result s m := m.terminator.state.diagnostics = s.diagnostics →
    IsEnding m.terminator.text →
    ∀ ctx : Context, (r.readValues c result (ctx.put s.rest)).val = ctx.members m
  oneValue c result s m := m.terminator.state.diagnostics = s.diagnostics →
    IsEnding m.terminator.text →
    ∀ ctx : Context, (r.readOneValue c result (ctx.put s.rest)).val = ctx.members m

theorem subquery_put (hr : r.Unrestricted) {restrict : Bool}
    (hblocks : s.blocks.head? = some .subquery)
    (hquiet : (r.readAlternatives s.diagnostics.length restrict (.start restrict)
      s).val.state.diagnostics = s.diagnostics)
    {p : Progress} {b : Text} (hleads : r.Leads restrict (.start restrict) s.rest p b)
    (hends : r.EndsAt b) (ctx : Context) :
    (r.readSubquery restrict ((ctx.enter .subquery).put s.rest)).val =
      ctx.outcome (r.readAlternatives s.diagnostics.length restrict (.start restrict) s).val := by
  have hne := text_next_ne_nil hr hblocks hquiet
  have hhere : (r.readAlternatives s.diagnostics.length restrict (.start restrict) s).val =
      (r.readAlternatives s.diagnostics.length restrict p ⟨b, s.blocks, s.diagnostics⟩).val :=
    hleads.reads_here [] s.blocks s.diagnostics s.diagnostics.length
  rw [hhere] at hquiet ⊢
  rcases hends with hfinish | hclose
  · exact absurd (Token.ofChunk_eq_finish_iff.1 hfinish)
      (text_next_ne_nil (s := ⟨b, s.blocks, s.diagnostics⟩) hr hblocks hquiet)
  · have hb : b ≠ [] := by
      intro hnil
      rw [hnil] at hclose
      exact rest_ne_nil_of_next (r := r) (s := ⟨[], [], []⟩)
        (Token.ne_nil_of_ofChunk hclose nofun) rfl
    rw [readSubquery_ne_nil (text_next_put_ne_nil hr hne _)]
    have hreads := hleads.reads (ctx.enter .subquery) []
      ((ctx.enter .subquery).put s.rest).diagnostics.length (fun hnil => absurd hnil hb)
    rw [Progress.behind_nil, Progress.behind_nil] at hreads
    rw [hreads]
    exact readAlternatives_closing_put (s := ⟨b, s.blocks, s.diagnostics⟩) hr hclose hblocks rfl
      hquiet ctx _

/-- A property condition is closed without a report only behind values. -/
theorem closeProperty_quiet {mark : Nat} {restrict : Bool} {c : Chain} {values : Members}
    (hmark : mark = values.terminator.state.diagnostics.length)
    (hquiet : (r.closeProperty mark restrict c values).state.diagnostics =
      values.terminator.state.diagnostics) :
    (∃ inner, values.result = some inner) ∧ values.terminator.text = [']', ']'] := by
  obtain ⟨result, terminator⟩ := values
  cases result with
  | none =>
    exact absurd hquiet (Precedes.not_quiet_of_report (.missingValue c.last.write)
      (precedes_finishAtom r mark restrict false _ ⟨terminator.text, _⟩))
  | some inner => exact ⟨⟨inner, rfl⟩, (finishAtom_quiet hmark hquiet).2⟩

/-- A property condition is closed in the same way in any context. -/
theorem closeProperty_put (hr : r.Unrestricted) {mark : Nat} {restrict : Bool} {c : Chain}
    {values : Members} (hmark : mark = values.terminator.state.diagnostics.length)
    (hquiet : (r.closeProperty mark restrict c values).state.diagnostics =
      values.terminator.state.diagnostics) :
    IsEnding values.terminator.text ∧ ∀ (ctx : Context) (mark' : Nat),
      r.closeProperty mark' restrict c ((ctx.enter .atom).members values) =
        ctx.outcome (r.closeProperty mark restrict c values) := by
  obtain ⟨⟨inner, hinner⟩, htext⟩ := closeProperty_quiet hmark hquiet
  obtain ⟨result, terminator⟩ := values
  obtain rfl : result = some inner := hinner
  exact ⟨.of_closing htext, fun ctx mark' => finishAtom_put hr hmark hquiet ctx mark'⟩

theorem contextInvariant_preserved (hr : r.Unrestricted) :
    (contextInvariant r).Preserved r where
  subquery_nil restrict s _ hblocks hquiet :=
    absurd hquiet (not_quiet_leaveAtEnd (s := (r.next s).state) hblocks _ _)
  subquery_alternatives restrict s _ halternatives hblocks hquiet ctx := by
    obtain ⟨p, b, hleads, hends⟩ := halternatives hquiet
    exact subquery_put hr hblocks hquiet hleads hends ctx
  finish mark restrict p s hnil _ :=
    ⟨p, s.rest, .refl p s.rest, .inl (Token.ofChunk_eq_finish_iff.2 hnil)⟩
  closeQuery mark restrict p s hclose _ := ⟨p, s.rest, .refl p s.rest, .inr hclose⟩
  openAtom mark restrict p s p' s' h heq hatom hothers hquiet := by
    obtain rfl : (r.atomAt s).state = s' := (congrArg Prod.snd (hr.addCondition p _)).symm.trans
      (congrArg Prod.snd heq)
    obtain rfl : (r.addCondition p (r.atomAt s)).1 = p' := congrArg Prod.fst heq
    obtain ⟨hquietAtom, hquietOthers⟩ :=
      (precedes_atomAt r s).quiet (precedes_readAlternatives r mark restrict _ _) hquiet
    obtain ⟨p', b, hleads, hends⟩ := hothers hquietOthers
    exact ⟨p', b, (Leads.openAtom hr h (hatom hquietAtom) p).trans hleads, hends⟩
  openQuery mark restrict p s p' s' h heq hsub hothers hquiet := by
    obtain rfl : (r.subqueryAt false s).state = s' :=
      (congrArg Prod.snd (hr.addCondition p _)).symm.trans (congrArg Prod.snd heq)
    obtain rfl : (r.addCondition p (r.subqueryAt false s)).1 = p' := congrArg Prod.fst heq
    obtain ⟨hquietSub, hquietOthers⟩ :=
      (precedes_subqueryAt r false s).quiet (precedes_readAlternatives r mark restrict _ _) hquiet
    obtain ⟨p', b, hleads, hends⟩ := hothers hquietOthers
    exact ⟨p', b, (Leads.openQuery hr h (hsub rfl hquietSub) p).trans hleads, hends⟩
  or mark restrict p s p' s' h heq hothers hquiet := by
    rw [hr.finishAlternative] at heq
    cases heq
    obtain ⟨p', b, hleads, hends⟩ := hothers hquiet
    exact ⟨p', b, (Leads.or hr h p).trans hleads, hends⟩
  wildcard mark restrict p s h hothers hquiet := by
    obtain ⟨p', b, hleads, hends⟩ := hothers hquiet
    exact ⟨p', b, (Leads.wildcard hr h p).trans hleads, hends⟩
  unexpected mark restrict p s s' _ heq _ hquiet := by
    subst heq
    exact absurd hquiet (Precedes.not_quiet_of_report (s := (r.next s).state) _
      (precedes_readAlternatives r mark restrict p _))
  classAtom kind restrict s hclass hquiet ctx := readAtom_class_put hr hclass hquiet ctx
  emptyAtom restrict s _ _ hquiet :=
    nomatch (finishAtom_quiet (c := ⟨_, r.opened s⟩) rfl hquiet).1
  escapedAtom restrict s h hcolon hquiet ctx := readAtom_escaped_put hr h hcolon hquiet ctx
  articleAtom restrict s hclass hempty h hquiet ctx :=
    readAtom_article_put hr hclass hempty h hquiet ctx
  propertyAtom restrict s h hcolon hproperty hquiet ctx := by
    have hseparator := Token.ne_nil_of_ofChunk h.separator nofun
    obtain ⟨hfirst, hopened⟩ := firstChunk_put hr (rest_ne_nil_of_next hseparator) ctx
    have hnext := next_put_mark hr h.separator trivial (ctx.enter .atom)
    rw [readAtom_property (by rw [hfirst]; exact h.noClass) (by rw [hfirst]; exact h.notEmpty)
      (by rw [hopened, hnext]; exact h.separator) (by rw [hfirst]; exact hcolon), hfirst,
      hopened, hnext]
    exact hproperty rfl hquiet ctx _
  property_error mark restrict name s problem _ _ hquiet :=
    absurd hquiet (Precedes.not_quiet_of_report problem (precedes_abandonAtom r mark restrict _))
  property_ok mark restrict name s c hchain hvalues hmark hquiet ctx mark' := by
    obtain ⟨hquietValues, hquietClose⟩ :=
      (precedes_readValues r c none s).quiet (precedes_closeProperty r mark restrict c _) hquiet
    have hmark' : mark = (r.readValues c none s).val.terminator.state.diagnostics.length := by
      rw [hquietValues]
      exact hmark
    obtain ⟨hend, hclose⟩ := closeProperty_put hr hmark' hquietClose
    rw [readProperty_ok hchain, hvalues hquietValues hend]
    exact hclose ctx mark'
  values_more c result s result' s' hbars hresult hstate hfirst hothers hquiet hend ctx := by
    subst hresult hstate
    obtain ⟨hquietFirst, hquietOthers⟩ :=
      (precedes_readOneValue r c result s).quiet (precedes_readValues r c _ _) hquiet
    have hput := hfirst hquietFirst (.of_bars hbars) ctx
    rw [readValues_more (by rw [hput]; exact hbars), hput]
    exact hothers hquietOthers hend ctx
  values_last c result s hlast hvalue hquiet hend ctx := by
    have hput := hvalue hquiet hend ctx
    rw [readValues_last (by rw [hput]; exact hlast), hput]
  value_wildcard c result s h _ hend ctx := by
    rw [hr.combine] at hend ⊢
    exact readOneValue_wildcard_put hr h hend ctx
  value_openQuery c result s combined h heq hsub hquiet hend ctx := by
    by_cases htype : c.valueType = .page
    · rw [addSubquery, if_pos htype, hr.combine] at heq
      subst heq
      exact readOneValue_openQuery_put hr h htype (hsub rfl hquiet) hend ctx
    · -- only pages can be asked about, and this is reported
      exfalso
      rw [addSubquery, if_neg htype, hr.combine] at heq
      subst heq
      have hreported := ((precedes_subqueryAt r true s).quiet ((Precedes.refl _).report _) hquiet).2
      exact Precedes.not_quiet_of_report _ (.refl _) hreported
  value_delimiter c result s hquery h _ hend ctx := by
    have hnext := next_put hr (.inr hend.isMark) ctx
    rw [readOneValue_delimiter (by rw [hnext]; exact hquery) (by rw [hnext]; exact h), hnext]
    rfl
  value_literal c result s h hquiet hend ctx := readOneValue_literal_put hr h hquiet hend ctx

end Reader

end InlineQuery
