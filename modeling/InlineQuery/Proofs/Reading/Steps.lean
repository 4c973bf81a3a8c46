/-
Reading, one step at a time.

The readers of `Reader.Subquery` return their outcome together with a bound
on what is left, which is what their recursion ends on and what nothing else
needs. The equations below are those of the outcomes alone: one for each
thing a reader may find in front of it.

`Invariant.Preserved` is the induction principle of the readers. A statement
about outcomes holds of every reading once it passes from the parts of each
reading to the whole; there is one case for each equation, and each case is
about outcomes only. What holds of all readings is proved from it and from
one lemma for each of the operations that the equations mention.
-/
import InlineQuery.Reader.Subquery

namespace InlineQuery

namespace Token

theorem ofChunk_eq_finish_iff {chunk : Text} : ofChunk chunk = .finish ↔ chunk = [] := by
  constructor
  · intro h
    have hite {p : Prop} [Decidable p] {a b : Token} (ha : a ≠ .finish) (hb : b ≠ .finish) :
        (if p then a else b) ≠ .finish := by
      split
      · exact ha
      · exact hb
    by_cases hnil : chunk = []
    · exact hnil
    · rw [ofChunk, if_neg hnil] at h
      refine absurd h ?_
      repeat' apply hite
      all_goals decide
  · intro h
    rw [h]
    rfl

end Token

namespace Reader

variable {r : Reader} {mark : Nat} {restrict : Bool} {p : Progress} {s : State}

-- ============================================================== subqueries

theorem readSubquery_nil (h : (r.next s).text = []) :
    (r.readSubquery restrict s).val =
      r.conclude s.diagnostics.length (.start restrict) (leaveAtEnd (r.next s).state) := by
  rw [readSubquery]
  exact congrArg Subtype.val (if_pos h)

theorem readSubquery_ne_nil (h : (r.next s).text ≠ []) :
    (r.readSubquery restrict s).val =
      (r.readAlternatives s.diagnostics.length restrict (.start restrict) s).val := by
  rw [readSubquery]
  exact congrArg Subtype.val (if_neg h)

-- ============================================================ alternatives

/-- The alternative under way with the condition of one more atom or
subquery. -/
def addCondition (r : Reader) (p : Progress) (o : Outcome) : Progress × State :=
  let combined := r.combine .conjunctive p.current o.result o.state
  ({ p with current := combined.result, restricted := p.restricted || o.restricted },
    combined.state)

theorem readAlternatives_finish (h : Token.ofChunk (r.next s).text = .finish) :
    (r.readAlternatives mark restrict p s).val =
      r.conclude mark (r.finishAlternative p (r.next s).state).1
        (leaveAtEnd (r.finishAlternative p (r.next s).state).2) := by
  rw [readAlternatives, dif_pos (Token.ofChunk_eq_finish_iff.1 h)]

theorem readAlternatives_openAtom (h : Token.ofChunk (r.next s).text = .openAtom) :
    (r.readAlternatives mark restrict p s).val =
      (r.readAlternatives mark restrict
        (r.addCondition p (r.readAtom false (r.next s).state).val).1
        (r.addCondition p (r.readAtom false (r.next s).state).val).2).val := by
  rw [readAlternatives, dif_neg (Token.ne_nil_of_ofChunk h (by decide))]
  simp only [h]
  rfl

theorem readAlternatives_openQuery (h : Token.ofChunk (r.next s).text = .openQuery) :
    (r.readAlternatives mark restrict p s).val =
      (r.readAlternatives mark restrict
        (r.addCondition p (r.readSubquery false ((r.next s).state.enter .subquery)).val).1
        (r.addCondition p
          (r.readSubquery false ((r.next s).state.enter .subquery)).val).2).val := by
  rw [readAlternatives, dif_neg (Token.ne_nil_of_ofChunk h (by decide))]
  simp only [h]
  rfl

theorem readAlternatives_or
    (h : Token.ofChunk (r.next s).text = .bars ∨ Token.ofChunk (r.next s).text = .orWord) :
    (r.readAlternatives mark restrict p s).val =
      (r.readAlternatives mark restrict (r.finishAlternative p (r.next s).state).1
        (r.finishAlternative p (r.next s).state).2).val := by
  rcases h with h | h
  · rw [readAlternatives, dif_neg (Token.ne_nil_of_ofChunk h (by decide))]
    simp only [h]
  · rw [readAlternatives, dif_neg (Token.ne_nil_of_ofChunk h (by decide))]
    simp only [h]

theorem readAlternatives_closeQuery (h : Token.ofChunk (r.next s).text = .closeQuery) :
    (r.readAlternatives mark restrict p s).val =
      r.leaveSubquery mark restrict (r.next s).text (r.finishAlternative p (r.next s).state).1
        (r.finishAlternative p (r.next s).state).2 := by
  rw [readAlternatives, dif_neg (Token.ne_nil_of_ofChunk h (by decide))]
  simp only [h]

theorem readAlternatives_wildcard (h : Token.ofChunk (r.next s).text = .wildcard) :
    (r.readAlternatives mark restrict p s).val =
      (r.readAlternatives mark restrict p (r.next s).state).val := by
  rw [readAlternatives, dif_neg (Token.ne_nil_of_ofChunk h (by decide))]
  simp only [h]

/-- The chunk has no place between atoms. -/
def Unexpected (chunk : Text) : Prop :=
  Token.ofChunk chunk ∈ [Token.closeAtom, .separator, .bar, .text]

theorem readAlternatives_unexpected (h : Unexpected (r.next s).text) :
    (r.readAlternatives mark restrict p s).val =
      (r.readAlternatives mark restrict p
        ((r.next s).state.report (.unexpectedPart (r.next s).text))).val := by
  simp only [Unexpected, List.mem_cons, List.not_mem_nil, or_false] at h
  have hne : (r.next s).text ≠ [] := by
    rcases h with h | h | h | h <;> exact Token.ne_nil_of_ofChunk h (by decide)
  rw [readAlternatives, dif_neg hne]
  rcases h with h | h | h | h <;> simp only [h]

-- =================================================================== atoms

/-- The state inside an atom, behind the text in front of its first
delimiter. -/
def opened (r : Reader) (s : State) : State :=
  { s.enter .atom with rest := (StopSet.all.cut r.config.labels s.rest).rest }

/-- The text in front of the first delimiter of an atom, blanks included. -/
def firstChunk (r : Reader) (s : State) : Text :=
  (StopSet.all.cut r.config.labels s.rest).chunk

/-- An atom that begins with a delimiter other than `<q>` has nothing in
it. -/
def StartsEmpty (chunk : Text) : Prop :=
  ((Token.ofChunk chunk).isDelimiter && Token.ofChunk chunk != .openQuery) = true

instance (chunk : Text) : Decidable (StartsEmpty chunk) := inferInstanceAs (Decidable (_ = true))

theorem readAtom_class {kind : ClassKind}
    (h : classKind? r.config (Text.trim (r.firstChunk s)) = some kind) :
    (r.readAtom restrict s).val =
      r.classAtom kind s.diagnostics.length restrict (r.opened s) := by
  rw [readAtom]
  simp only [firstChunk] at h
  simp only [h]
  rfl

theorem readAtom_empty (hclass : classKind? r.config (Text.trim (r.firstChunk s)) = none)
    (h : StartsEmpty (Text.trim (r.firstChunk s))) :
    (r.readAtom restrict s).val =
      r.finishAtom s.diagnostics.length restrict false none
        ⟨Text.trim (r.firstChunk s), r.opened s⟩ := by
  rw [readAtom]
  simp only [firstChunk, StartsEmpty] at hclass h
  simp only [hclass, if_pos h]
  rfl

theorem readAtom_escaped (hclass : classKind? r.config (Text.trim (r.firstChunk s)) = none)
    (hempty : ¬ StartsEmpty (Text.trim (r.firstChunk s)))
    (h : Token.ofChunk (r.next (r.opened s)).text = .separator)
    (hcolon : (r.firstChunk s).head? = some ':') :
    (r.readAtom restrict s).val =
      r.articleAtom s.diagnostics.length restrict none
        ⟨Text.trim (r.firstChunk s ++ (r.nextAt .atomContent (r.opened s)).text),
          (r.nextAt .atomContent (r.opened s)).state⟩ := by
  rw [readAtom]
  simp only [firstChunk, StartsEmpty, opened] at hclass hempty h hcolon
  simp only [hclass, if_neg hempty, if_pos h, if_pos hcolon]
  rfl

theorem readAtom_property (hclass : classKind? r.config (Text.trim (r.firstChunk s)) = none)
    (hempty : ¬ StartsEmpty (Text.trim (r.firstChunk s)))
    (h : Token.ofChunk (r.next (r.opened s)).text = .separator)
    (hcolon : (r.firstChunk s).head? ≠ some ':') :
    (r.readAtom restrict s).val =
      (r.readProperty s.diagnostics.length restrict (r.firstChunk s)
        (r.next (r.opened s)).state).val := by
  rw [readAtom]
  simp only [firstChunk, StartsEmpty, opened] at hclass hempty h hcolon
  simp only [hclass, if_neg hempty, if_pos h, if_neg hcolon]
  rfl

theorem readAtom_article (hclass : classKind? r.config (Text.trim (r.firstChunk s)) = none)
    (hempty : ¬ StartsEmpty (Text.trim (r.firstChunk s)))
    (h : Token.ofChunk (r.next (r.opened s)).text ≠ .separator) :
    (r.readAtom restrict s).val =
      r.articleAtom s.diagnostics.length restrict none
        ⟨Text.trim (r.firstChunk s), r.opened s⟩ := by
  rw [readAtom]
  simp only [firstChunk, StartsEmpty, opened] at hclass hempty h
  simp only [hclass, if_neg hempty, if_neg h]
  rfl

theorem restrictAtom_false (r : Reader) (restricted : Bool) (result : Option Description)
    (s : State) : r.restrictAtom false restricted result s = ⟨result, restricted, s⟩ := by
  unfold restrictAtom
  split <;> rfl

/-- An atom that is not asked to restrict itself ends with the condition it
was given. -/
theorem result_finishAtom (restricted : Bool) (result : Option Description) (c : Chunk) :
    (r.finishAtom mark false restricted result c).result = result := by
  rw [finishAtom, restrictAtom_false]

theorem restricted_finishAtom (restricted : Bool) (result : Option Description) (c : Chunk) :
    (r.finishAtom mark false restricted result c).restricted = restricted := by
  rw [finishAtom, restrictAtom_false]

theorem articleAtom_last {result : Option Description} {c : Chunk}
    (hquery : Token.ofChunk c.text ≠ .openQuery)
    (h : Token.ofChunk (r.nextAt .atomContent
      (r.combine .disjunctive result (articleMember r.config c.text).1
        (reportAny (articleMember r.config c.text).2 c.state)).state).text ≠ .bars) :
    r.articleAtom mark restrict result c =
      let combined := r.combine .disjunctive result (articleMember r.config c.text).1
        (reportAny (articleMember r.config c.text).2 c.state)
      r.finishAtom mark restrict true combined.result (r.nextAt .atomContent combined.state) := by
  rw [articleAtom, if_neg hquery]
  exact if_neg h

/-- What an atom that names pages ends with is put together from the pages
and namespaces it names, one at a time. -/
theorem articleAtom_keeps {P : Option Description → Prop} (hnone : P none)
    (hmember : ∀ result t s, P result →
      P (r.combine .disjunctive result (articleMember r.config t).1 s).result)
    {result : Option Description} (hresult : P result) (c : Chunk) :
    P (r.articleAtom mark false result c).result := by
  fun_induction articleAtom r mark false result c with
  | case1 result c h =>
    rw [abandonAtom, result_finishAtom]
    exact hnone
  | case2 result c h condition problem hc combined following hmore ih =>
    refine ih ?_
    have := hmember result c.text (reportAny problem c.state) hresult
    rwa [hc] at this
  | case3 result c h condition problem hc combined following hmore =>
    rw [result_finishAtom]
    have := hmember result c.text (reportAny problem c.state) hresult
    rwa [hc] at this

-- ============================================================== properties

theorem readProperty_error {name : Text} {problem : Diagnostic}
    (h : chain r.config name = .error problem) :
    (r.readProperty mark restrict name s).val =
      r.abandonAtom mark restrict (s.report problem) := by
  rw [readProperty]
  simp only [h]

/-- The end of a property condition whose values have been read. A condition
without a value is one on any value. -/
def closeProperty (r : Reader) (mark : Nat) (restrict : Bool) (c : Chain) (values : Members) :
    Outcome :=
  match values.result with
  | some inner => r.finishAtom mark restrict false (some (c.describe inner)) values.terminator
  | none =>
    r.finishAtom mark restrict false (some (c.describe (r.wildcard c.valueType)))
      ⟨values.terminator.text,
        values.terminator.state.report (.missingValue c.last.write)⟩

theorem readProperty_ok {name : Text} {c : Chain} (h : chain r.config name = .ok c) :
    (r.readProperty mark restrict name s).val =
      r.closeProperty mark restrict c (r.readValues c none s).val := by
  rw [readProperty, closeProperty]
  simp only [h]
  cases (r.readValues c none s).val.result <;> rfl

variable {c : Chain} {result : Option Description}

theorem readValues_more
    (h : Token.ofChunk (r.readOneValue c result s).val.terminator.text = .bars) :
    (r.readValues c result s).val =
      (r.readValues c (r.readOneValue c result s).val.result
        (r.readOneValue c result s).val.terminator.state).val := by
  rw [readValues, dif_pos h]

theorem readValues_last
    (h : Token.ofChunk (r.readOneValue c result s).val.terminator.text ≠ .bars) :
    (r.readValues c result s).val = (r.readOneValue c result s).val := by
  rw [readValues, dif_neg h]

/-- The condition that a subquery makes as a value of a property; only
values that are pages can be asked about. -/
def addSubquery (r : Reader) (c : Chain) (result : Option Description) (o : Outcome) :
    Obtained :=
  if c.valueType = .page then r.combine .disjunctive result o.result o.state
  else
    r.combine .disjunctive result (some (.thing []))
      (o.state.report (.valueSubquery c.last.write))

/-- The values so far with one more that is written out, and the chunk that
ended it. -/
def addLiteral (r : Reader) (c : Chain) (result : Option Description) (text : ValueText)
    (s : State) : Members :=
  let condition := value r.config c.last c.valueType text.value
  let combined := r.combine .disjunctive result (some condition.1)
    (reportAny condition.2 { s with rest := text.rest })
  ⟨combined.result, ⟨text.terminator, combined.state⟩⟩

@[simp] theorem rest_addSubquery (r : Reader) (c : Chain) (result : Option Description)
    (o : Outcome) : (r.addSubquery c result o).state.rest = o.state.rest := by
  unfold addSubquery
  split <;> simp

@[simp] theorem rest_addLiteral (r : Reader) (c : Chain) (result : Option Description)
    (text : ValueText) (s : State) :
    (r.addLiteral c result text s).terminator.state.rest = text.rest := by
  rw [addLiteral, rest_combine, rest_reportAny]

theorem readOneValue_wildcard (h : Token.ofChunk (r.next s).text = .wildcard) :
    (r.readOneValue c result s).val =
      let combined :=
        r.combine .disjunctive result (some (r.wildcard c.valueType)) (r.next s).state
      ⟨combined.result, r.next combined.state⟩ := by
  rw [readOneValue, dif_neg (Token.ne_nil_of_ofChunk h (by decide))]
  simp only [h]

theorem readOneValue_openQuery (h : Token.ofChunk (r.next s).text = .openQuery) :
    (r.readOneValue c result s).val =
      let combined := r.addSubquery c result
        (r.readSubquery true ((r.next s).state.enter .subquery)).val
      ⟨combined.result, r.next combined.state⟩ := by
  rw [readOneValue, dif_neg (Token.ne_nil_of_ofChunk h (by decide))]
  simp only [h]
  rfl

theorem readOneValue_delimiter (hquery : Token.ofChunk (r.next s).text ≠ .openQuery)
    (h : (Token.ofChunk (r.next s).text).isDelimiter = true) :
    (r.readOneValue c result s).val = ⟨result, r.next s⟩ := by
  rw [readOneValue]
  split
  · rfl
  · cases htoken : Token.ofChunk (r.next s).text <;> rw [htoken] at hquery h <;>
      first
      | exact absurd rfl hquery
      | exact absurd h (by decide)
      | rfl

theorem readOneValue_literal
    (h : Token.ofChunk (r.next s).text = .text ∨ Token.ofChunk (r.next s).text = .orWord) :
    (r.readOneValue c result s).val =
      r.addLiteral c result
        (readValue r.config.labels (r.next s).text (r.next s).state.rest) (r.next s).state := by
  have hne : (r.next s).text ≠ [] := by
    rcases h with h | h <;> exact Token.ne_nil_of_ofChunk h (by decide)
  rw [readOneValue, dif_neg hne]
  rcases h with h | h
  · simp only [h]
    rfl
  · simp only [h]
    rfl

-- =============================================================== induction

/-- A statement about the outcomes of the readers, one part for each: what
it says of reading a subquery, its alternatives from some point on, an atom,
a property condition, the values of one, and a single value. -/
structure Invariant where
  subquery : Bool → State → Outcome → Prop
  alternatives : Nat → Bool → Progress → State → Outcome → Prop
  atom : Bool → State → Outcome → Prop
  property : Nat → Bool → Text → State → Outcome → Prop
  values : Chain → Option Description → State → Members → Prop
  oneValue : Chain → Option Description → State → Members → Prop

/-- An atom has text in front of its first delimiter that is not the name of a
class, and that delimiter is the one behind a property. -/
structure StartsProperty (r : Reader) (s : State) : Prop where
  noClass : classKind? r.config (Text.trim (r.firstChunk s)) = none
  notEmpty : ¬ StartsEmpty (Text.trim (r.firstChunk s))
  separator : Token.ofChunk (r.next (r.opened s)).text = .separator

/-- The statement passes from the parts of every reading to the whole. -/
structure Invariant.Preserved (I : Invariant) (r : Reader) : Prop where
  subquery_nil : ∀ restrict s, (r.next s).text = [] →
    I.subquery restrict s
      (r.conclude s.diagnostics.length (.start restrict) (leaveAtEnd (r.next s).state))
  subquery_alternatives : ∀ restrict s, (r.next s).text ≠ [] →
    I.alternatives s.diagnostics.length restrict (.start restrict) s
      (r.readAlternatives s.diagnostics.length restrict (.start restrict) s).val →
    I.subquery restrict s
      (r.readAlternatives s.diagnostics.length restrict (.start restrict) s).val
  finish : ∀ mark restrict p s, (r.next s).text = [] →
    I.alternatives mark restrict p s
      (r.conclude mark (r.finishAlternative p (r.next s).state).1
        (leaveAtEnd (r.finishAlternative p (r.next s).state).2))
  openAtom : ∀ mark restrict p s p' s', Token.ofChunk (r.next s).text = .openAtom →
    r.addCondition p (r.readAtom false (r.next s).state).val = (p', s') →
    I.atom false (r.next s).state (r.readAtom false (r.next s).state).val →
    I.alternatives mark restrict p' s' (r.readAlternatives mark restrict p' s').val →
    I.alternatives mark restrict p s (r.readAlternatives mark restrict p' s').val
  openQuery : ∀ mark restrict p s p' s', Token.ofChunk (r.next s).text = .openQuery →
    r.addCondition p (r.readSubquery false ((r.next s).state.enter .subquery)).val = (p', s') →
    I.subquery false ((r.next s).state.enter .subquery)
      (r.readSubquery false ((r.next s).state.enter .subquery)).val →
    I.alternatives mark restrict p' s' (r.readAlternatives mark restrict p' s').val →
    I.alternatives mark restrict p s (r.readAlternatives mark restrict p' s').val
  or : ∀ mark restrict p s p' s',
    Token.ofChunk (r.next s).text = .bars ∨ Token.ofChunk (r.next s).text = .orWord →
    r.finishAlternative p (r.next s).state = (p', s') →
    I.alternatives mark restrict p' s' (r.readAlternatives mark restrict p' s').val →
    I.alternatives mark restrict p s (r.readAlternatives mark restrict p' s').val
  closeQuery : ∀ mark restrict p s,
    Token.ofChunk (r.next s).text = .closeQuery →
    I.alternatives mark restrict p s
      (r.leaveSubquery mark restrict (r.next s).text (r.finishAlternative p (r.next s).state).1
        (r.finishAlternative p (r.next s).state).2)
  wildcard : ∀ mark restrict p s, Token.ofChunk (r.next s).text = .wildcard →
    I.alternatives mark restrict p (r.next s).state
      (r.readAlternatives mark restrict p (r.next s).state).val →
    I.alternatives mark restrict p s (r.readAlternatives mark restrict p (r.next s).state).val
  unexpected : ∀ mark restrict p s s', Unexpected (r.next s).text →
    (r.next s).state.report (.unexpectedPart (r.next s).text) = s' →
    I.alternatives mark restrict p s' (r.readAlternatives mark restrict p s').val →
    I.alternatives mark restrict p s (r.readAlternatives mark restrict p s').val
  classAtom : ∀ kind restrict s,
    classKind? r.config (Text.trim (r.firstChunk s)) = some kind →
    I.atom restrict s (r.classAtom kind s.diagnostics.length restrict (r.opened s))
  emptyAtom : ∀ restrict s, classKind? r.config (Text.trim (r.firstChunk s)) = none →
    StartsEmpty (Text.trim (r.firstChunk s)) →
    I.atom restrict s
      (r.finishAtom s.diagnostics.length restrict false none
        ⟨Text.trim (r.firstChunk s), r.opened s⟩)
  escapedAtom : ∀ restrict s, r.StartsProperty s → (r.firstChunk s).head? = some ':' →
    I.atom restrict s
      (r.articleAtom s.diagnostics.length restrict none
        ⟨Text.trim (r.firstChunk s ++ (r.nextAt .atomContent (r.opened s)).text),
          (r.nextAt .atomContent (r.opened s)).state⟩)
  articleAtom : ∀ restrict s, classKind? r.config (Text.trim (r.firstChunk s)) = none →
    ¬ StartsEmpty (Text.trim (r.firstChunk s)) →
    Token.ofChunk (r.next (r.opened s)).text ≠ .separator →
    I.atom restrict s
      (r.articleAtom s.diagnostics.length restrict none
        ⟨Text.trim (r.firstChunk s), r.opened s⟩)
  propertyAtom : ∀ restrict s, r.StartsProperty s → (r.firstChunk s).head? ≠ some ':' →
    I.property s.diagnostics.length restrict (r.firstChunk s) (r.next (r.opened s)).state
      (r.readProperty s.diagnostics.length restrict (r.firstChunk s)
        (r.next (r.opened s)).state).val →
    I.atom restrict s
      (r.readProperty s.diagnostics.length restrict (r.firstChunk s)
        (r.next (r.opened s)).state).val
  property_error : ∀ mark restrict name s problem, chain r.config name = .error problem →
    I.property mark restrict name s (r.abandonAtom mark restrict (s.report problem))
  property_ok : ∀ mark restrict name s c, chain r.config name = .ok c →
    I.values c none s (r.readValues c none s).val →
    I.property mark restrict name s (r.closeProperty mark restrict c (r.readValues c none s).val)
  values_more : ∀ c result s result' s',
    Token.ofChunk (r.readOneValue c result s).val.terminator.text = .bars →
    (r.readOneValue c result s).val.result = result' →
    (r.readOneValue c result s).val.terminator.state = s' →
    I.oneValue c result s (r.readOneValue c result s).val →
    I.values c result' s' (r.readValues c result' s').val →
    I.values c result s (r.readValues c result' s').val
  values_last : ∀ c result s,
    Token.ofChunk (r.readOneValue c result s).val.terminator.text ≠ .bars →
    I.oneValue c result s (r.readOneValue c result s).val →
    I.values c result s (r.readOneValue c result s).val
  value_wildcard : ∀ c result s, Token.ofChunk (r.next s).text = .wildcard →
    I.oneValue c result s
      (let combined :=
        r.combine .disjunctive result (some (r.wildcard c.valueType)) (r.next s).state
      ⟨combined.result, r.next combined.state⟩)
  value_openQuery : ∀ c result s combined, Token.ofChunk (r.next s).text = .openQuery →
    r.addSubquery c result (r.readSubquery true ((r.next s).state.enter .subquery)).val =
      combined →
    I.subquery true ((r.next s).state.enter .subquery)
      (r.readSubquery true ((r.next s).state.enter .subquery)).val →
    I.oneValue c result s ⟨combined.result, r.next combined.state⟩
  value_delimiter : ∀ c result s, Token.ofChunk (r.next s).text ≠ .openQuery →
    (Token.ofChunk (r.next s).text).isDelimiter = true → I.oneValue c result s ⟨result, r.next s⟩
  value_literal : ∀ c result s,
    Token.ofChunk (r.next s).text = .text ∨ Token.ofChunk (r.next s).text = .orWord →
    I.oneValue c result s
      (r.addLiteral c result
        (readValue r.config.labels (r.next s).text (r.next s).state.rest) (r.next s).state)

theorem opened_length_le (r : Reader) (s : State) :
    (r.opened s).rest.length ≤ s.rest.length :=
  StopSet.cut_length_le _ _ _

@[simp] theorem rest_addCondition (r : Reader) (p : Progress) (o : Outcome) :
    (r.addCondition p o).2.rest = o.state.rest :=
  rest_combine ..

/-- Shorter rests come first; of two readers of the same rest, the one that
is called by the other. -/
private theorem lex_of_le {m n i j : Nat} (h : m ≤ n) (hij : i < j) :
    Prod.Lex (· < ·) (· < ·) (m, i) (n, j) := by
  rcases Nat.lt_or_eq_of_le h with hlt | heq
  · exact Prod.Lex.left _ _ hlt
  · rw [heq]
    exact Prod.Lex.right _ hij

namespace Invariant.Preserved

variable {I : Invariant} {r : Reader}

mutual

theorem subquery (h : I.Preserved r) (restrict : Bool) (s : State) :
    I.subquery restrict s (r.readSubquery restrict s).val := by
  by_cases hnil : (r.next s).text = []
  · rw [readSubquery_nil hnil]
    exact h.subquery_nil restrict s hnil
  · rw [readSubquery_ne_nil hnil]
    exact h.subquery_alternatives restrict s hnil (alternatives h _ restrict _ s)
termination_by (s.rest.length, 5)
decreasing_by exact lex_of_le (Nat.le_refl _) (by omega)

theorem alternatives (h : I.Preserved r) (mark : Nat) (restrict : Bool) (p : Progress)
    (s : State) :
    I.alternatives mark restrict p s (r.readAlternatives mark restrict p s).val := by
  by_cases hnil : (r.next s).text = []
  · rw [readAlternatives_finish (Token.ofChunk_eq_finish_iff.2 hnil)]
    exact h.finish mark restrict p s hnil
  · have hlt := next_length_lt hnil
    cases htoken : Token.ofChunk (r.next s).text with
    | finish => exact absurd (Token.ofChunk_eq_finish_iff.1 htoken) hnil
    | openAtom =>
      rw [readAlternatives_openAtom htoken]
      have hatom := (r.readAtom false (r.next s).state).property
      exact h.openAtom mark restrict p s _ _ htoken rfl (atom h false _)
        (alternatives h mark restrict _ _)
    | openQuery =>
      rw [readAlternatives_openQuery htoken]
      have hsub := (r.readSubquery false ((r.next s).state.enter .subquery)).property
      exact h.openQuery mark restrict p s _ _ htoken rfl (subquery h false _)
        (alternatives h mark restrict _ _)
    | bars =>
      rw [readAlternatives_or (.inl htoken)]
      exact h.or mark restrict p s _ _ (.inl htoken) rfl (alternatives h mark restrict _ _)
    | orWord =>
      rw [readAlternatives_or (.inr htoken)]
      exact h.or mark restrict p s _ _ (.inr htoken) rfl (alternatives h mark restrict _ _)
    | closeQuery =>
      rw [readAlternatives_closeQuery htoken]
      exact h.closeQuery mark restrict p s htoken
    | wildcard =>
      rw [readAlternatives_wildcard htoken]
      exact h.wildcard mark restrict p s htoken (alternatives h mark restrict p _)
    | _ =>
      have hunexpected : Unexpected (r.next s).text := by simp [Unexpected, htoken]
      rw [readAlternatives_unexpected hunexpected]
      exact h.unexpected mark restrict p s _ hunexpected rfl (alternatives h mark restrict p _)
termination_by (s.rest.length, 4)
decreasing_by
  all_goals
    apply Prod.Lex.left
    simp only [rest_addCondition, rest_finishAlternative, State.rest_enter,
      State.rest_report] at *
    omega

theorem atom (h : I.Preserved r) (restrict : Bool) (s : State) :
    I.atom restrict s (r.readAtom restrict s).val := by
  cases hclass : classKind? r.config (Text.trim (r.firstChunk s)) with
  | some kind =>
    rw [readAtom_class hclass]
    exact h.classAtom kind restrict s hclass
  | none =>
    by_cases hempty : StartsEmpty (Text.trim (r.firstChunk s))
    · rw [readAtom_empty hclass hempty]
      exact h.emptyAtom restrict s hclass hempty
    · by_cases hseparator : Token.ofChunk (r.next (r.opened s)).text = .separator
      · by_cases hcolon : (r.firstChunk s).head? = some ':'
        · rw [readAtom_escaped hclass hempty hseparator hcolon]
          exact h.escapedAtom restrict s ⟨hclass, hempty, hseparator⟩ hcolon
        · rw [readAtom_property hclass hempty hseparator hcolon]
          have hle := Nat.le_trans (next_length_le r (r.opened s)) (opened_length_le r s)
          exact h.propertyAtom restrict s ⟨hclass, hempty, hseparator⟩ hcolon
            (property h _ restrict _ _)
      · rw [readAtom_article hclass hempty hseparator]
        exact h.articleAtom restrict s hclass hempty hseparator
termination_by (s.rest.length, 3)
decreasing_by exact lex_of_le hle (by omega)

theorem property (h : I.Preserved r) (mark : Nat) (restrict : Bool) (name : Text) (s : State) :
    I.property mark restrict name s (r.readProperty mark restrict name s).val := by
  cases hchain : chain r.config name with
  | error problem =>
    rw [readProperty_error hchain]
    exact h.property_error mark restrict name s problem hchain
  | ok c =>
    rw [readProperty_ok hchain]
    exact h.property_ok mark restrict name s c hchain (values h c none s)
termination_by (s.rest.length, 2)
decreasing_by exact lex_of_le (Nat.le_refl _) (by omega)

theorem values (h : I.Preserved r) (c : Chain) (result : Option Description) (s : State) :
    I.values c result s (r.readValues c result s).val := by
  by_cases hbars : Token.ofChunk (r.readOneValue c result s).val.terminator.text = .bars
  · rw [readValues_more hbars]
    have hlt := (r.readOneValue c result s).property.2
      (Token.ne_nil_of_ofChunk hbars (by decide))
    exact h.values_more c result s _ _ hbars rfl rfl (oneValue h c result s) (values h c _ _)
  · rw [readValues_last hbars]
    exact h.values_last c result s hbars (oneValue h c result s)
termination_by (s.rest.length, 1)
decreasing_by
  · exact lex_of_le (Nat.le_refl _) (by omega)
  · exact Prod.Lex.left _ _ hlt
  · exact lex_of_le (Nat.le_refl _) (by omega)

theorem oneValue (h : I.Preserved r) (c : Chain) (result : Option Description) (s : State) :
    I.oneValue c result s (r.readOneValue c result s).val := by
  cases htoken : Token.ofChunk (r.next s).text with
  | wildcard =>
    rw [readOneValue_wildcard htoken]
    exact h.value_wildcard c result s htoken
  | openQuery =>
    rw [readOneValue_openQuery htoken]
    have hlt := next_length_lt (Token.ne_nil_of_ofChunk htoken (by decide))
    exact h.value_openQuery c result s _ htoken rfl (subquery h true _)
  | text =>
    rw [readOneValue_literal (.inl htoken)]
    exact h.value_literal c result s (.inl htoken)
  | orWord =>
    rw [readOneValue_literal (.inr htoken)]
    exact h.value_literal c result s (.inr htoken)
  | _ =>
    have hquery : Token.ofChunk (r.next s).text ≠ .openQuery := by simp [htoken]
    have hdelimiter : (Token.ofChunk (r.next s).text).isDelimiter = true := by
      simp [htoken, Token.isDelimiter]
    rw [readOneValue_delimiter hquery hdelimiter]
    exact h.value_delimiter c result s hquery hdelimiter
termination_by (s.rest.length, 0)
decreasing_by exact Prod.Lex.left _ _ hlt

end

end Invariant.Preserved

end Reader

end InlineQuery
