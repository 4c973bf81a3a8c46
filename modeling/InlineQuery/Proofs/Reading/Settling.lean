/-
Atoms without a condition, and the namespace of their neighbours.

An atom says whether it settles the namespace of the pages, and if one does,
the default restriction is left off its alternative. What an atom says is a
matter of its kind. One that names pages settles the namespace when it comes to
its end, even if none of the names was any good, and that is the one kind that
does so without a condition (`restricted_iff_endsAsPages`). A page atom that is
given up, over a subquery in it, settles nothing, and neither does an atom of
any other kind that comes to nothing: the reader goes on behind it as if it had
not been there (`addCondition_of_none`).

Whether a page atom was given up can be told from its diagnostics, since a
misplaced subquery is reported for no other reason; `misplaced` counts these
reports, and nothing else that happens in an atom changes the count.
-/
import InlineQuery.Proofs.Reading.Reports
import InlineQuery.Query

namespace InlineQuery

namespace State

/-- The number of misplaced subqueries that were reported. -/
def misplaced (s : State) : Nat := s.diagnostics.count .misplacedSubquery

end State

namespace Reader

open State

variable {r : Reader} {mark : Nat} {restrict : Bool} {s : State}

-- ==================================================== what is not reported

theorem misplaced_articleMember (config : Config) (t : Text) (s : State) :
    (reportAny (articleMember config t).2 s).misplaced = s.misplaced := by
  unfold articleMember
  split
  · rfl
  · split
    · rfl
    · exact times_report_of_ne (by simp) s

theorem misplaced_expectClosing (r : Reader) (c : Chunk) :
    (r.expectClosing c).misplaced = c.state.misplaced := by
  unfold expectClosing
  split
  · rfl
  · split
    · exact times_report_of_ne (by simp) c.state
    · have hskip := (times_skipToClosing .misplacedSubquery r
        (c.state.report (.misplacedSymbol c.text))).trans (times_report_of_ne (by simp) c.state)
      dsimp only
      split
      · exact (times_report_of_ne (by simp) _).trans hskip
      · exact hskip

theorem misplaced_finishAtom (r : Reader) (mark : Nat) (restrict restricted : Bool)
    (result : Option Description) (c : Chunk) :
    (r.finishAtom mark restrict restricted result c).state.misplaced = c.state.misplaced := by
  rw [state_finishAtom, misplaced, ← times, times_leaveAtom (by simp)]
  refine (misplaced_expectClosing r _).trans ?_
  refine (times_skipLabel (by simp) r _).trans ?_
  refine (times_restrictAtom (by simp) r restrict restricted result _).trans ?_
  split
  · exact times_report_of_ne (by simp) c.state
  · rfl

-- ========================================================= the end of an atom

/-- An atom that ends without a condition has settled what was settled
before its end. -/
theorem restricted_finishAtom_of_none {restricted : Bool} {result : Option Description}
    {c : Chunk} (hnone : (r.finishAtom mark restrict restricted result c).result = none) :
    (r.finishAtom mark restrict restricted result c).restricted = restricted := by
  cases result with
  | none => rfl
  | some d =>
    have hsome := isSome_finishAtom (r := r) mark restrict restricted d c
    rw [hnone] at hsome
    cases hsome

/-- What is settled remains so. -/
theorem restricted_finishAtom_true (mark : Nat) (restrict : Bool) (result : Option Description)
    (c : Chunk) : (r.finishAtom mark restrict true result c).restricted = true := by
  unfold finishAtom restrictAtom
  dsimp only
  split
  · rw [Bool.not_true, Bool.and_false]
    rfl
  · rfl

/-- An atom that names pages either comes to its end and settles the namespace,
or is given up over a subquery and does not. -/
theorem restricted_articleAtom (mark : Nat) (restrict : Bool) (result : Option Description)
    (c : Chunk) :
    ((r.articleAtom mark restrict result c).restricted = true ∧
        (r.articleAtom mark restrict result c).state.misplaced = c.state.misplaced) ∨
      ((r.articleAtom mark restrict result c).restricted = false ∧
        (r.articleAtom mark restrict result c).state.misplaced = c.state.misplaced + 1) := by
  have hmember (result : Option Description) (c : Chunk) :
      (r.combine .disjunctive result (articleMember r.config c.text).1
        (reportAny (articleMember r.config c.text).2 c.state)).state.misplaced =
        c.state.misplaced := by
    exact (times_combine (by simp) r _ _ _ _).trans (misplaced_articleMember _ _ _)
  fun_induction articleAtom r mark restrict result c with
  | case1 result c hquery =>
    refine .inr ⟨rfl, ?_⟩
    rw [abandonAtom, misplaced_finishAtom]
    exact (times_skipToClosing _ r _).trans (times_report _ c.state)
  | case2 result c hquery condition problem hc combined following hmore ih =>
    have hmember := hmember result c
    rw [hc] at hmember
    have hbefore : (r.nextAt .atomContent following.state).state.misplaced = c.state.misplaced :=
      hmember
    rwa [hbefore] at ih
  | case3 result c hquery condition problem hc combined following hmore =>
    have hmember := hmember result c
    rw [hc] at hmember
    refine .inl ⟨restricted_finishAtom_true mark restrict _ following, ?_⟩
    rw [misplaced_finishAtom]
    exact hmember

-- ==================================================================== atoms

/-- The atom names pages or namespaces: it begins neither with the name of a
class nor with a delimiter, and if the separator of properties is in it, then
behind a colon. -/
structure NamesPages (r : Reader) (s : State) : Prop where
  noClass : classKind? r.config (Text.trim (r.firstChunk s)) = none
  notEmpty : ¬ StartsEmpty (Text.trim (r.firstChunk s))
  escaped : Token.ofChunk (r.next (r.opened s)).text = .separator →
    (r.firstChunk s).head? = some ':'

/-- An atom names pages and comes to its end. -/
def EndsAsPages (r : Reader) (restrict : Bool) (s : State) : Prop :=
  r.NamesPages s ∧ (r.readAtom restrict s).val.state.misplaced = s.misplaced

theorem result_closeProperty_ne_none (mark : Nat) (restrict : Bool) (c : Chain)
    (values : Members) : (r.closeProperty mark restrict c values).result ≠ none := by
  unfold closeProperty
  split
  · exact Option.isSome_iff_ne_none.1 (isSome_finishAtom mark restrict false _ _)
  · exact Option.isSome_iff_ne_none.1 (isSome_finishAtom mark restrict false _ _)

/-- An atom that names pages is read as one, from its first chunk on. -/
theorem NamesPages.exists_articleAtom (h : r.NamesPages s) (restrict : Bool) :
    ∃ c : Chunk, c.state.misplaced = s.misplaced ∧
      (r.readAtom restrict s).val = r.articleAtom s.diagnostics.length restrict none c := by
  by_cases hseparator : Token.ofChunk (r.next (r.opened s)).text = .separator
  · exact ⟨_, rfl, readAtom_escaped h.noClass h.notEmpty hseparator (h.escaped hseparator)⟩
  · exact ⟨_, rfl, readAtom_article h.noClass h.notEmpty hseparator⟩

/-- An atom of another kind settles nothing if it comes to nothing. -/
theorem restricted_of_not_namesPages (hother : ¬ r.NamesPages s)
    (hnone : (r.readAtom restrict s).val.result = none) :
    (r.readAtom restrict s).val.restricted = false := by
  cases hclass : classKind? r.config (Text.trim (r.firstChunk s)) with
  | some kind =>
    rw [readAtom_class hclass, classAtom] at hnone ⊢
    exact restricted_finishAtom_of_none hnone
  | none =>
    by_cases hempty : StartsEmpty (Text.trim (r.firstChunk s))
    · rw [readAtom_empty hclass hempty] at hnone ⊢
      exact restricted_finishAtom_of_none hnone
    · -- only a property is left, and a chain that can be read has a condition
      obtain ⟨hseparator, hcolon⟩ : Token.ofChunk (r.next (r.opened s)).text = .separator ∧
          (r.firstChunk s).head? ≠ some ':' := by
        refine Classical.byContradiction fun hproperty => hother ⟨hclass, hempty, fun h => ?_⟩
        exact Classical.byContradiction fun hcolon => hproperty ⟨h, hcolon⟩
      rw [readAtom_property hclass hempty hseparator hcolon] at hnone ⊢
      cases hchain : chain r.config (r.firstChunk s) with
      | error problem =>
        rw [readProperty_error hchain, abandonAtom] at hnone ⊢
        exact restricted_finishAtom_of_none hnone
      | ok c =>
        rw [readProperty_ok hchain] at hnone
        exact absurd hnone (result_closeProperty_ne_none _ _ _ _)

/-- An atom without a condition settles the namespace exactly if it names pages
and comes to its end. -/
theorem restricted_iff_endsAsPages (hnone : (r.readAtom restrict s).val.result = none) :
    (r.readAtom restrict s).val.restricted = true ↔ r.EndsAsPages restrict s := by
  by_cases hpages : r.NamesPages s
  · obtain ⟨c, hc, heq⟩ := hpages.exists_articleAtom restrict
    rw [EndsAsPages, heq, ← hc]
    obtain ⟨hrestricted, hmisplaced⟩ | ⟨hrestricted, hmisplaced⟩ :=
      restricted_articleAtom (r := r) s.diagnostics.length restrict none c
    · exact iff_of_true hrestricted ⟨hpages, hmisplaced⟩
    · refine iff_of_false (by rw [hrestricted]; exact Bool.false_ne_true) fun h => ?_
      have hsame := h.2
      omega
  · rw [restricted_of_not_namesPages hpages hnone]
    exact iff_of_false Bool.false_ne_true fun h => hpages h.1

-- =============================================================== neighbours

/-- An atom without a condition adds nothing but what it settles. -/
theorem addCondition_of_none (p : Progress) {o : Outcome} (hnone : o.result = none) :
    r.addCondition p o = ({ p with restricted := p.restricted || o.restricted }, o.state) := by
  unfold addCondition combine
  rw [hnone]
  rfl

/-- **Only page atoms settle the namespace without a condition.** An atom of
which no condition came, in any state of a reader, settles the namespace if it
names pages and comes to its end, and in no other case. In all other cases the
reader of the alternative goes on behind it with what it had, so that whether
the others are restricted is decided without it. -/
theorem restricted_of_no_condition (r : Reader) :
    (∀ restrict s, (r.readAtom restrict s).val.result = none →
      ((r.readAtom restrict s).val.restricted = true ↔ r.EndsAsPages restrict s)) ∧
    ∀ mark restrict p s, Token.ofChunk (r.next s).text = .openAtom →
      (r.readAtom false (r.next s).state).val.result = none →
      ¬ r.EndsAsPages false (r.next s).state →
      (r.readAlternatives mark restrict p s).val =
        (r.readAlternatives mark restrict p (r.readAtom false (r.next s).state).val.state).val := by
  refine ⟨fun restrict s hnone => restricted_iff_endsAsPages hnone,
    fun mark restrict p s htoken hnone hother => ?_⟩
  have hrestricted : (r.readAtom false (r.next s).state).val.restricted = false := by
    simpa [hother] using restricted_iff_endsAsPages hnone
  rw [readAlternatives_openAtom htoken, addCondition_of_none p hnone, hrestricted, Bool.or_false]

/-- A page atom that is given up over the subquery in it: the reader goes on
behind the first `]]`. -/
theorem restricted_of_no_condition_misplaced :
    let r := ofConfig { defaultNamespaces := some [0] }
    let s := State.start "[[<q>[[A::+]]</q>]]".toList
    let behind : State := ⟨"</q>]]".toList, [], [.misplacedSubquery]⟩
    ((Token.ofChunk (r.next s).text = .openAtom ∧
        (r.readAtom false (r.next s).state).val.result = none) ∧
        ¬ r.EndsAsPages false (r.next s).state) ∧
      (r.readAtom false (r.next s).state).val.restricted = false ∧
      (r.readAlternatives 0 false (.start false) s).val =
        (r.readAlternatives 0 false (.start false) behind).val := by
  intro r s behind
  have htoken : Token.ofChunk (r.next s).text = .openAtom := by decide +kernel
  obtain ⟨hnone, hstate, hreported⟩ :
      (r.readAtom false (r.next s).state).val.result = none ∧
        (r.readAtom false (r.next s).state).val.state = behind ∧
        (r.readAtom false (r.next s).state).val.state.misplaced ≠ (r.next s).state.misplaced := by
    rw [readAtom_article (by decide +kernel) (by decide +kernel) (by decide +kernel),
      articleAtom_misplaced (by decide +kernel)]
    decide +kernel
  have hother : ¬ r.EndsAsPages false (r.next s).state := fun h => hreported h.2
  obtain ⟨hiff, hbehind⟩ := restricted_of_no_condition r
  have hrestricted : (r.readAtom false (r.next s).state).val.restricted = false := by
    simpa [hother] using hiff false _ hnone
  have hon := hbehind 0 false (.start false) s htoken hnone hother
  rw [hstate] at hon
  exact ⟨⟨⟨htoken, hnone⟩, hother⟩, hrestricted, hon⟩

/-- There is no namespace of that name, so that the atom has no condition; but it
names pages, and the category behind it is not restricted to the default
namespace. Behind an atom with nothing in it, it is. -/
theorem empty_pages_lift_restriction :
    let r := ofConfig { defaultNamespaces := some [0] }
    let s : State := ⟨"Nowhere:+]] [[Category:City]]".toList, [], []⟩
    let city := Description.categories [Page.category "City".toList] true []
    let nowhere := "[[Nowhere:+]] [[Category:City]]".toList
    let nothing := "[[]] [[Category:City]]".toList
    ((r.readAtom false s).val.result = none ∧ (r.readAtom false s).val.restricted = true) ∧
      ((Query.read r nowhere).description = city ∧
        (Query.read r nowhere).diagnostics = [.badAtom]) ∧
      (Query.read r nothing).description = .conjunction [.inNamespace 0 [] [], city] [] ∧
      (Query.read r nothing).diagnostics = [.badAtom] := by
  intro r s city nowhere nothing
  -- both queries go on with the category, and differ in what is settled
  let category : State := ⟨" [[Category:City]]".toList, [], [.badAtom]⟩
  have hatom : (r.readAtom false (r.next category).state).val.result = some city ∧
      (r.readAtom false (r.next category).state).val.restricted = false ∧
      (r.readAtom false (r.next category).state).val.state = ⟨[], [], [.badAtom]⟩ := by
    rw [readAtom_class (by decide +kernel : _ = some .category), classAtom,
      readClass_last (by decide +kernel) (by decide +kernel)]
    decide +kernel
  obtain ⟨hcity, hunsettled, hend⟩ := hatom
  have hcategory (mark : Nat) {p : Progress} (hp : p.current = none) :
      (r.readAlternatives mark false p category).val =
        (r.readAlternatives mark false { p with current := some city }
          ⟨[], [], [.badAtom]⟩).val := by
    rw [readAlternatives_openAtom (by decide +kernel)]
    unfold addCondition
    rw [hcity, hunsettled, hend, Bool.or_false, hp]
    rfl
  have hpages : (r.readAtom false s).val.result = none ∧
      (r.readAtom false s).val.restricted = true ∧
      (r.readAtom false s).val.state = category := by
    rw [readAtom_article (by decide +kernel) (by decide +kernel) (by decide +kernel),
      articleAtom_last (by decide +kernel) (by decide +kernel)]
    decide +kernel
  have hempty : (r.readAtom false (r.next (.start nothing)).state).val.result = none ∧
      (r.readAtom false (r.next (.start nothing)).state).val.restricted = false ∧
      (r.readAtom false (r.next (.start nothing)).state).val.state = category := by
    rw [readAtom_empty (by decide +kernel) (by decide +kernel)]
    decide +kernel
  refine ⟨⟨hpages.1, hpages.2.1⟩, ?_, ?_⟩
  · obtain ⟨htoken, hbehind⟩ : Token.ofChunk (r.next (.start nowhere)).text = .openAtom ∧
        (r.next (.start nowhere)).state = s := by decide +kernel
    unfold Query.read read
    rw [readSubquery_ne_nil (by decide +kernel), readAlternatives_openAtom htoken, hbehind,
      addCondition_of_none _ hpages.1, hpages.2.1, hpages.2.2, hcategory _ rfl,
      readAlternatives_finish (by decide +kernel)]
    decide +kernel
  · unfold Query.read read
    rw [readSubquery_ne_nil (by decide +kernel), readAlternatives_openAtom (by decide +kernel),
      addCondition_of_none _ hempty.1, hempty.2.1, hempty.2.2, hcategory _ rfl,
      readAlternatives_finish (by decide +kernel)]
    decide +kernel

end Reader

end InlineQuery
