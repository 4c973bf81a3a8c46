/-
Reading ends, and it leaves nothing unread without saying so.

# The measure

A call has no more left to read than the one that makes it. If it has as much,
it is a call of a function with a smaller rank (`Makes.shrinks`), and there are
finitely many ranks. So calls are not nested without end, and a function that
is called again while it runs, directly or through others, has less left to
read than before.

The places where as much is left are those where a reader hands on to another
one what it has not looked at: a subquery to its first alternative, a property
to its values. Every loop takes at least one chunk each time around.

# What is left

At the end of a whole query nothing but blanks is left, or a `</q>` was found
that closes nothing (`Ends`), which is then the last thing reported.
-/
import InlineQuery.Proofs.Reading.Calls

namespace InlineQuery

namespace Reader

open State

variable {r : Reader} {call call' : Call}

-- ============================================================== the measure

/-- The second call has less left to read than the first one, or it has no more
and is one of a function that comes before. -/
def Call.Shrinks (call call' : Call) : Prop :=
  Prod.Lex (· < ·) (· < ·) (call'.before.rest.length, call'.rank)
    (call.before.rest.length, call.rank)

theorem Call.Shrinks.of_lt (h : call'.before.rest.length < call.before.rest.length) :
    call.Shrinks call' :=
  Prod.Lex.left _ _ h

theorem Call.Shrinks.of_le (h : call'.before.rest.length ≤ call.before.rest.length)
    (hrank : Nat.blt call'.rank call.rank = true) : call.Shrinks call' := by
  rcases Nat.lt_or_eq_of_le h with hlt | heq
  · exact .of_lt hlt
  · unfold Shrinks
    rw [heq]
    exact Prod.Lex.right _ (Nat.blt_eq.mp hrank)

theorem Call.Shrinks.trans {call'' : Call} (h : call.Shrinks call')
    (h' : call'.Shrinks call'') : call.Shrinks call'' := by
  unfold Shrinks at h h' ⊢
  rw [Prod.lex_def] at h h' ⊢
  omega

theorem atomAt_length_le (r : Reader) (s : State) :
    (r.atomAt s).state.rest.length ≤ (r.next s).state.rest.length :=
  (r.readAtom false (r.next s).state).property

theorem subqueryAt_length_le (r : Reader) (restrict : Bool) (s : State) :
    (r.subqueryAt restrict s).state.rest.length ≤ (r.next s).state.rest.length :=
  (r.readSubquery restrict ((r.next s).state.enter .subquery)).property

theorem beforeLeaving_length_le (r : Reader) (mark : Nat) (restrict restricted : Bool)
    (result : Option Description) (c : Chunk) :
    (r.beforeLeaving mark restrict restricted result c).rest.length ≤ c.state.rest.length := by
  have h := finishAtom_length_le r mark restrict restricted result c
  rwa [state_finishAtom, rest_leaveAtom] at h

/-- With every call less is left to read, or the function comes before. -/
theorem Makes.shrinks (h : r.Makes call call') : call.Shrinks call' := by
  cases h with
  | whole t => exact .of_le (Nat.le_refl _) rfl
  | defaults t =>
    exact .of_le (r.readSubquery false (.start t)).property rfl
  | concludeEmpty restrict s =>
    apply Call.Shrinks.of_le _ rfl
    show (leaveAtEnd (r.next s).state).rest.length ≤ s.rest.length
    rw [rest_leaveAtEnd]
    exact next_length_le r s
  | alternatives => exact .of_le (Nat.le_refl _) rfl
  | atom mark restrict p s h =>
    exact .of_le (next_length_le r s) rfl
  | addAtom mark restrict p s h =>
    exact .of_le (Nat.le_trans (atomAt_length_le r s) (next_length_le r s)) rfl
  | behindAtom mark restrict p s h =>
    apply Call.Shrinks.of_lt
    show (r.addCondition p (r.atomAt s)).2.rest.length < s.rest.length
    rw [rest_addCondition]
    exact Nat.lt_of_le_of_lt (atomAt_length_le r s) (next_length_lt_of_token h nofun)
  | subquery mark restrict p s h =>
    exact .of_lt (next_length_lt_of_token h nofun)
  | addSubquery mark restrict p s h =>
    exact .of_le (Nat.le_trans (subqueryAt_length_le r false s) (next_length_le r s)) rfl
  | behindSubquery mark restrict p s h =>
    apply Call.Shrinks.of_lt
    show (r.addCondition p (r.subqueryAt false s)).2.rest.length < s.rest.length
    rw [rest_addCondition]
    exact Nat.lt_of_le_of_lt (subqueryAt_length_le r false s)
      (next_length_lt_of_token h nofun)
  | finish mark restrict p s =>
    exact .of_le (next_length_le r s) rfl
  | behindOr mark restrict p s h =>
    apply Call.Shrinks.of_lt
    show (r.finishAlternative p (r.next s).state).2.rest.length < s.rest.length
    rw [rest_finishAlternative]
    rcases h with h | h
    · exact next_length_lt_of_token h nofun
    · exact next_length_lt_of_token h nofun
  | concludeAtClosing mark restrict p s =>
    apply Call.Shrinks.of_le _ rfl
    show (r.finishAlternative p (r.next s).state).2.leave.rest.length ≤ s.rest.length
    rw [State.rest_leave, rest_finishAlternative]
    exact next_length_le r s
  | concludeAtEnd mark restrict p s =>
    apply Call.Shrinks.of_le _ rfl
    show (leaveAtEnd (r.finishAlternative p (r.next s).state).2).rest.length ≤ s.rest.length
    rw [rest_leaveAtEnd, rest_finishAlternative]
    exact next_length_le r s
  | behindWildcard mark restrict p s h =>
    exact .of_lt (next_length_lt_of_token h nofun)
  | behindUnexpected mark restrict p s h =>
    exact .of_lt (next_length_lt_of_unexpected h)
  | restrictEarlier p s defaults front =>
    apply Call.Shrinks.of_le _ rfl
    exact Nat.le_of_eq (congrArg List.length (rest_restrictAll r defaults front s))
  | restrictCurrent => exact .of_le (Nat.le_refl _) rfl
  | joinAlternative mark p s front =>
    apply Call.Shrinks.of_le _ rfl
    exact Nat.le_of_eq (congrArg List.length (rest_combineAll r none front s))
  | members kind restrict s =>
    exact .of_le (opened_length_le r s) rfl
  | closeClass kind restrict s =>
    exact .of_le (Nat.le_trans (readClass_length_le r kind none _) (opened_length_le r s))
      rfl
  | closeEmpty restrict s =>
    exact .of_le (opened_length_le r s) rfl
  | escapedArticles restrict s =>
    exact .of_le (Nat.le_trans (nextAt_length_le r _ _) (opened_length_le r s)) rfl
  | articles restrict s =>
    exact .of_le (opened_length_le r s) rfl
  | property restrict s =>
    exact .of_le (Nat.le_trans (next_length_le r _) (opened_length_le r s)) rfl
  | addMember kind result s =>
    apply Call.Shrinks.of_le _ rfl
    show (reportAny _ (r.next s).state).rest.length ≤ s.rest.length
    rw [rest_reportAny]
    exact next_length_le r s
  | behindMember kind result s h =>
    apply Call.Shrinks.of_lt
    show (r.next (r.memberAt kind result s).state).state.rest.length < s.rest.length
    apply Nat.lt_of_le_of_lt (next_length_le r _)
    rw [rest_memberAt]
    exact next_length_lt_of_member h
  | closeMisplaced mark restrict result c =>
    exact .of_le (skipToClosing_length_le r (c.state.report _)) rfl
  | addArticle mark restrict result c =>
    apply Call.Shrinks.of_le _ rfl
    exact Nat.le_of_eq (congrArg List.length (rest_reportAny _ c.state))
  | behindArticle mark restrict result c h hmore =>
    apply Call.Shrinks.of_lt
    apply Nat.lt_of_le_of_lt (nextAt_length_le r _ _)
    have hlt := nextAt_length_lt (Token.ne_nil_of_ofChunk hmore nofun)
    rwa [rest_articleAt] at hlt
  | closeArticles mark restrict result c =>
    apply Call.Shrinks.of_le _ rfl
    have hle := nextAt_length_le r .atomContent (r.articleAt result c).state
    rwa [rest_articleAt] at hle
  | closeNameless mark restrict name s problem =>
    exact .of_le (skipToClosing_length_le r (s.report problem)) rfl
  | values => exact .of_le (Nat.le_refl _) rfl
  | closeProperty mark restrict name s c =>
    exact .of_le (r.readValues c none s).property.1 rfl
  | closeValueless mark restrict name s c =>
    exact .of_le (r.readValues c none s).property.1 rfl
  | oneValue => exact .of_le (Nat.le_refl _) rfl
  | behindValue c result s h =>
    exact .of_lt ((r.readOneValue c result s).property.2 (Token.ne_nil_of_ofChunk h nofun))
  | addWildcard c result s =>
    exact .of_le (next_length_le r s) rfl
  | valueSubquery c result s h =>
    exact .of_lt (next_length_lt_of_token h nofun)
  | addValueSubquery c result s =>
    exact .of_le (Nat.le_trans (subqueryAt_length_le r true s) (next_length_le r s)) rfl
  | dropValueSubquery c result s =>
    exact .of_le (Nat.le_trans (subqueryAt_length_le r true s) (next_length_le r s)) rfl
  | valueText c result s =>
    exact .of_le (next_length_le r s) rfl
  | addLiteral c result s =>
    apply Call.Shrinks.of_le _ rfl
    show (reportAny _ { (r.next s).state with rest := (r.literalAt s).rest }).rest.length ≤ _
    rw [rest_reportAny]
    exact Nat.le_trans (readValueFrom_length_le ..) (next_length_le r s)
  | behindBracket openBrackets value s h =>
    apply Call.Shrinks.of_lt
    apply nextAt_length_lt
    intro hnil
    rw [hnil] at h
    exact h rfl
  | restrictAtom => exact .of_le (Nat.le_refl _) rfl
  | leave mark restrict restricted result c =>
    exact .of_le (beforeLeaving_length_le r mark restrict restricted result c) rfl

/-- A function that is called again while it runs has less left to read. -/
theorem Makes.length_lt_of_rank_eq (h : Relation.TransGen r.Makes call call')
    (hrank : call'.rank = call.rank) : call'.before.rest.length < call.before.rest.length := by
  have hshrinks : call.Shrinks call' := by
    clear hrank
    induction h with
    | single h => exact h.shrinks
    | tail _ h ih => exact ih.trans h.shrinks
  rw [Call.Shrinks, hrank] at hshrinks
  rcases Prod.lex_def.1 hshrinks with hlt | ⟨-, hlt⟩
  · exact hlt
  · exact absurd hlt (Nat.lt_irrefl _)

/-- Calls are not nested without end. -/
theorem wellFounded_makes (r : Reader) : WellFounded fun call' call => r.Makes call call' :=
  Subrelation.wf (fun h => h.shrinks)
    (InvImage.wf (fun call : Call => (call.before.rest.length, call.rank))
      (Prod.lex Nat.lt_wfRel Nat.lt_wfRel).wf)

-- ============================================================ what is left

/-- **Reading terminates and leaves no text unread silently.** Calls are not
nested without end, every function that is called again while it runs has
strictly less left to read, and at the end of a query nothing but blanks is
left unless the last diagnostic is about a `</q>` without a counterpart. -/
theorem reading_terminates (r : Reader) (query : Text) :
    (WellFounded fun call' call => r.Makes call call') ∧
    (∀ call call', Relation.TransGen r.Makes call call' → call'.rank = call.rank →
      call'.before.rest.length < call.before.rest.length) ∧
    (Text.isBlankText (r.read query).state.rest = true ∨
      ∃ front found, (r.read query).state.diagnostics =
          front ++ [.mismatchedDelimiter none (some found)] ∧
        Text.eqIgnoreAsciiCase found Block.subquery.closing = true) := by
  refine ⟨wellFounded_makes r, fun _ _ h hrank => Makes.length_lt_of_rank_eq h hrank, ?_⟩
  obtain ⟨o, hends, hstate⟩ := read_ends r query
  rw [hstate]
  cases hends with
  | finish _ hblank => exact .inl hblank
  | stray restricted chunk _ hclose =>
    exact .inr ⟨_, chunk, rfl, Token.eqIgnoreAsciiCase_of_closeQuery hclose⟩

end Reader

end InlineQuery
