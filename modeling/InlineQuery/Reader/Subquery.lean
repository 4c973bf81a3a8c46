/-
Subqueries: rows of atoms with alternatives between them, up to `</q>` or
the end of the query. A property condition may hold a subquery among its
values, and a subquery consists of atoms, so the two are read by functions
that call each other.

Every one of them returns an outcome together with a proof that what is left
to read is no longer than what there was. A call inside `[[` or `<q>` has
strictly less to read, and that is why reading ends on any text.

A query that settles no namespace is put under the default restriction. Once
one alternative settles its namespace, the others are restricted as well,
the earlier ones after the fact.
-/
import InlineQuery.Reader.Atom

namespace InlineQuery

namespace Reader

-- ============================================================ alternatives

/-- How far a subquery has been read: the alternative under way, the ones
before it, whether the one under way settles its namespace, and whether
those that do not have to be restricted. -/
structure Progress where
  current : Option Description
  finished : List (Option Description)
  restricted : Bool
  restrict : Bool

/-- Nothing has been read. -/
def Progress.start (restrict : Bool) : Progress := ⟨none, [], false, restrict⟩

/-- The conditions, each with the default restriction added. -/
def restrictAll (r : Reader) (defaults : Description) :
    List (Option Description) → State → List (Option Description) × State
  | [], s => ([], s)
  | d :: ds, s =>
    let combined := r.combine .conjunctive d (some defaults) s
    let others := r.restrictAll defaults ds combined.state
    (combined.result :: others.1, others.2)

/-- The alternative under way is finished. If it is the first to settle its
namespace, the earlier ones are restricted now; if it does not and has to,
it is restricted itself. -/
def finishAlternative (r : Reader) (p : Progress) (s : State) : Progress × State :=
  match r.defaults with
  | none => (⟨none, p.finished ++ [p.current], false, p.restrict⟩, s)
  | some defaults =>
    if p.restricted && !p.restrict then
      let (finished, s) := r.restrictAll defaults p.finished s
      (⟨none, finished ++ [p.current], false, true⟩, s)
    else if !p.restricted && p.restrict then
      let combined := r.combine .conjunctive p.current (some defaults) s
      (⟨none, p.finished ++ [combined.result], false, p.restrict⟩, combined.state)
    else (⟨none, p.finished ++ [p.current], false, p.restrict⟩, s)

/-- The disjunction of the conditions, added to what there is already. -/
def combineAll (r : Reader) (result : Option Description) :
    List (Option Description) → State → Obtained
  | [], s => ⟨result, s⟩
  | d :: ds, s =>
    let combined := r.combine .disjunctive result d s
    r.combineAll combined.result ds combined.state

/-- What the alternatives of a subquery amount to: their disjunction, or
nothing if one of them has no condition. `mark` is the number of diagnostics
when the subquery began. Losing an empty subquery is reported unless
something in it was; losing conditions is reported in any case. -/
def conclude (r : Reader) (mark : Nat) (p : Progress) (s : State) : Outcome :=
  if p.finished.isEmpty || p.finished.any Option.isNone then
    let losesContent := p.finished.any Option.isSome
    ⟨none, false,
      if losesContent || s.diagnostics.length == mark then s.report .emptySubquery else s⟩
  else
    let combined := r.combineAll none p.finished s
    ⟨combined.result, p.restrict, combined.state⟩

/-- The query ends; a subquery that is still open is closed and reported. -/
def leaveAtEnd (s : State) : State :=
  if s.blocks.head? = some .subquery then
    s.leave.report (.mismatchedDelimiter (some Block.subquery.closing) none)
  else s

/-- A `</q>`, written as `chunk`, has been read. If it closes nothing, what
was read so far is given up. -/
def leaveSubquery (r : Reader) (mark : Nat) (restrict : Bool) (chunk : Text) (p : Progress)
    (s : State) : Outcome :=
  if s.blocks.head? = some .subquery then r.conclude mark p s.leave
  else ⟨none, restrict, s.leave.report (.mismatchedDelimiter s.expected? (some chunk))⟩

@[simp] theorem rest_restrictAll (r : Reader) (defaults : Description)
    (ds : List (Option Description)) (s : State) :
    (r.restrictAll defaults ds s).2.rest = s.rest := by
  induction ds generalizing s with
  | nil => rfl
  | cons d ds ih => rw [restrictAll]; simp [ih]

@[simp] theorem rest_finishAlternative (r : Reader) (p : Progress) (s : State) :
    (r.finishAlternative p s).2.rest = s.rest := by
  unfold finishAlternative
  split
  · rfl
  · split
    · simp
    · split <;> simp

@[simp] theorem rest_combineAll (r : Reader) (result : Option Description)
    (ds : List (Option Description)) (s : State) :
    (r.combineAll result ds s).state.rest = s.rest := by
  induction ds generalizing result s with
  | nil => rfl
  | cons d ds ih => rw [combineAll]; simp [ih]

@[simp] theorem rest_conclude (r : Reader) (mark : Nat) (p : Progress) (s : State) :
    (r.conclude mark p s).state.rest = s.rest := by
  unfold conclude
  dsimp only
  split
  · split <;> simp
  · simp

@[simp] theorem rest_leaveAtEnd (s : State) : (leaveAtEnd s).rest = s.rest := by
  unfold leaveAtEnd
  split <;> rfl

@[simp] theorem rest_leaveSubquery (r : Reader) (mark : Nat) (restrict : Bool) (chunk : Text)
    (p : Progress) (s : State) :
    (r.leaveSubquery mark restrict chunk p s).state.rest = s.rest := by
  unfold leaveSubquery
  split <;> simp

-- ================================================================= reading

/-- An outcome that leaves no more to read than there was in `s`. -/
abbrev Within (s : State) := { o : Outcome // o.state.rest.length ≤ s.rest.length }

/-- The values of a property, and the chunk behind them. A chunk behind them
that is not empty was read, so that less is left than there was in `s`. -/
abbrev MembersWithin (s : State) :=
  { m : Members // m.terminator.state.rest.length ≤ s.rest.length ∧
    (m.terminator.text ≠ [] → m.terminator.state.rest.length < s.rest.length) }

mutual

/-- A subquery behind its `<q>`, or a whole query; `restrict` asks for the
default restriction. -/
def readSubquery (r : Reader) (restrict : Bool) (s : State) : Within s :=
  let mark := s.diagnostics.length
  let first := r.next s
  if first.text = [] then
    ⟨r.conclude mark (.start restrict) (leaveAtEnd first.state), by
      simpa using next_length_le r s⟩
  else r.readAlternatives mark restrict (.start restrict) s
termination_by (s.rest.length, 5)
decreasing_by exact Prod.Lex.right _ (by omega)

/-- The atoms and alternatives of a subquery from here on. A `+` between
atoms means nothing. -/
def readAlternatives (r : Reader) (mark : Nat) (restrict : Bool) (p : Progress) (s : State) :
    Within s :=
  let c := r.next s
  have hle := next_length_le r s
  if hend : c.text = [] then
    let finished := r.finishAlternative p c.state
    ⟨r.conclude mark finished.1 (leaveAtEnd finished.2), by simpa [finished] using hle⟩
  else
    have hlt := next_length_lt hend
    match Token.ofChunk c.text with
    | .openAtom =>
      let atom := r.readAtom false c.state
      let combined := r.combine .conjunctive p.current atom.val.result atom.val.state
      have hatom : combined.state.rest.length ≤ c.state.rest.length := by
        simpa only [combined, rest_combine] using atom.property
      let others := r.readAlternatives mark restrict
        { p with current := combined.result, restricted := p.restricted || atom.val.restricted }
        combined.state
      ⟨others.val, Nat.le_trans others.property (Nat.le_trans hatom hle)⟩
    | .openQuery =>
      let sub := r.readSubquery false (c.state.enter .subquery)
      let combined := r.combine .conjunctive p.current sub.val.result sub.val.state
      have hsub : combined.state.rest.length ≤ c.state.rest.length := by
        simpa only [combined, rest_combine, State.rest_enter] using sub.property
      let others := r.readAlternatives mark restrict
        { p with current := combined.result, restricted := p.restricted || sub.val.restricted }
        combined.state
      ⟨others.val, Nat.le_trans others.property (Nat.le_trans hsub hle)⟩
    | .bars | .orWord =>
      let finished := r.finishAlternative p c.state
      have hfinished : finished.2.rest.length ≤ c.state.rest.length := by simp [finished]
      let others := r.readAlternatives mark restrict finished.1 finished.2
      ⟨others.val, Nat.le_trans others.property (Nat.le_trans hfinished hle)⟩
    | .closeQuery =>
      let finished := r.finishAlternative p c.state
      ⟨r.leaveSubquery mark restrict c.text finished.1 finished.2, by
        simpa [finished] using hle⟩
    | .wildcard =>
      let others := r.readAlternatives mark restrict p c.state
      ⟨others.val, Nat.le_trans others.property hle⟩
    | _ =>
      let others := r.readAlternatives mark restrict p (c.state.report (.unexpectedPart c.text))
      ⟨others.val, Nat.le_trans others.property hle⟩
termination_by (s.rest.length, 4)
decreasing_by
  all_goals
    apply Prod.Lex.left
    first
      | exact hlt
      | exact Nat.lt_of_le_of_lt hatom hlt
      | exact Nat.lt_of_le_of_lt hsub hlt
      | exact Nat.lt_of_le_of_lt hfinished hlt

/-- An atom behind its `[[`. What stands in front of its first delimiter
decides what kind of atom it is. A space in front of it matters to property
names, so it is not trimmed away at once; a colon in front of it makes a
page title of what would be a property. -/
def readAtom (r : Reader) (restrict : Bool) (s : State) : Within s :=
  let mark := s.diagnostics.length
  let cut := StopSet.all.cut r.config.labels s.rest
  have hcut : cut.rest.length ≤ s.rest.length := StopSet.cut_length_le _ _ _
  let opened : State := { s.enter .atom with rest := cut.rest }
  let first := Text.trim cut.chunk
  match classKind? r.config first with
  | some kind =>
    ⟨r.classAtom kind mark restrict opened,
      Nat.le_trans (classAtom_length_le r kind mark restrict opened) hcut⟩
  | none =>
    let token := Token.ofChunk first
    if token.isDelimiter && token != .openQuery then
      ⟨r.finishAtom mark restrict false none ⟨first, opened⟩,
        Nat.le_trans (finishAtom_length_le ..) hcut⟩
    else
      let separator := r.next opened
      have hseparator : separator.state.rest.length ≤ s.rest.length :=
        Nat.le_trans (next_length_le r opened) hcut
      if Token.ofChunk separator.text = .separator then
        if cut.chunk.head? = some ':' then
          let others := r.nextAt .atomContent opened
          ⟨r.articleAtom mark restrict none
              ⟨Text.trim (cut.chunk ++ others.text), others.state⟩,
            Nat.le_trans (articleAtom_length_le ..)
              (Nat.le_trans (nextAt_length_le r .atomContent opened) hcut)⟩
        else
          let atom := r.readProperty mark restrict cut.chunk separator.state
          ⟨atom.val, Nat.le_trans atom.property hseparator⟩
      else
        ⟨r.articleAtom mark restrict none ⟨first, opened⟩,
          Nat.le_trans (articleAtom_length_le ..) hcut⟩
termination_by (s.rest.length, 3)
decreasing_by
  rcases Nat.lt_or_eq_of_le hseparator with h | h
  · exact Prod.Lex.left _ _ h
  · rw [h]
    exact Prod.Lex.right _ (by omega)

/-- A property condition behind its separator, given the text in front of
it. A condition without a value is one on any value. -/
def readProperty (r : Reader) (mark : Nat) (restrict : Bool) (name : Text) (s : State) :
    Within s :=
  match chain r.config name with
  | .error problem =>
    ⟨r.abandonAtom mark restrict (s.report problem), abandonAtom_length_le r mark restrict _⟩
  | .ok chain =>
    let values := r.readValues chain none s
    let terminator := values.val.terminator
    match values.val.result with
    | some inner =>
      ⟨r.finishAtom mark restrict false (some (chain.describe inner)) terminator,
        Nat.le_trans (finishAtom_length_le ..) values.property.1⟩
    | none =>
      let reported := terminator.state.report (.missingValue chain.last.write)
      ⟨r.finishAtom mark restrict false
          (some (chain.describe (r.wildcard chain.valueType))) ⟨terminator.text, reported⟩,
        Nat.le_trans (finishAtom_length_le ..) values.property.1⟩
termination_by (s.rest.length, 2)
decreasing_by exact Prod.Lex.right _ (by omega)

/-- The values of a property from here on, each separated from the next by
`||`, and what was read of them already. -/
def readValues (r : Reader) (chain : Chain) (result : Option Description) (s : State) :
    MembersWithin s :=
  let value := r.readOneValue chain result s
  if hbars : Token.ofChunk value.val.terminator.text = .bars then
    have hlt := value.property.2 (Token.ne_nil_of_ofChunk hbars (by decide))
    let others := r.readValues chain value.val.result value.val.terminator.state
    ⟨others.val, Nat.le_trans others.property.1 (Nat.le_of_lt hlt), fun _ =>
      Nat.lt_of_le_of_lt others.property.1 hlt⟩
  else value
termination_by (s.rest.length, 1)
decreasing_by
  · exact Prod.Lex.right _ (by omega)
  · exact Prod.Lex.left _ _ hlt

/-- One value of a property, added to those read already, and the chunk
behind it. A delimiter where the value should be is itself that chunk. -/
def readOneValue (r : Reader) (chain : Chain) (result : Option Description) (s : State) :
    MembersWithin s :=
  let c := r.next s
  have hle := next_length_le r s
  if hend : c.text = [] then ⟨⟨result, c⟩, hle, fun h => absurd hend h⟩
  else
    have hlt := next_length_lt hend
    match Token.ofChunk c.text with
    | .wildcard =>
      let combined := r.combine .disjunctive result (some (r.wildcard chain.valueType)) c.state
      have hnext : (r.next combined.state).state.rest.length < s.rest.length :=
        Nat.lt_of_le_of_lt (next_length_le r _) (by simpa only [combined, rest_combine] using hlt)
      ⟨⟨combined.result, r.next combined.state⟩, Nat.le_of_lt hnext, fun _ => hnext⟩
    | .openQuery =>
      let sub := r.readSubquery true (c.state.enter .subquery)
      let combined :=
        if chain.valueType = .page then
          r.combine .disjunctive result sub.val.result sub.val.state
        else
          r.combine .disjunctive result (some (.thing []))
            (sub.val.state.report (.valueSubquery chain.last.write))
      have hsub : combined.state.rest.length ≤ c.state.rest.length := by
        have := sub.property
        simp only [combined]
        split <;> simpa using this
      have hnext : (r.next combined.state).state.rest.length < s.rest.length :=
        Nat.lt_of_le_of_lt (next_length_le r _) (Nat.lt_of_le_of_lt hsub hlt)
      ⟨⟨combined.result, r.next combined.state⟩, Nat.le_of_lt hnext, fun _ => hnext⟩
    | token =>
      if token.isDelimiter then ⟨⟨result, c⟩, hle, fun _ => hlt⟩
      else
        let text := readValue r.config.labels c.text c.state.rest
        have htext : text.rest.length ≤ c.state.rest.length := readValueFrom_length_le ..
        let (condition, problem) :=
          value r.config chain.last chain.valueType text.value
        let behind : State := { c.state with rest := text.rest }
        let combined := r.combine .disjunctive result (some condition) (reportAny problem behind)
        have hcombined : combined.state.rest.length < s.rest.length := by
          simp only [combined, rest_combine, rest_reportAny]
          exact Nat.lt_of_le_of_lt htext hlt
        ⟨⟨combined.result, ⟨text.terminator, combined.state⟩⟩, Nat.le_of_lt hcombined,
          fun _ => hcombined⟩
termination_by (s.rest.length, 0)
decreasing_by exact Prod.Lex.left _ _ hlt

end

-- ================================================================= queries

/-- What reading a query yields: its condition, and the state at the end of
the query, with every diagnostic that was reported. -/
structure Parsed where
  description : Description
  state : State

/-- A whole query, with the default restriction if it settles no namespace.
A query without any condition is met by every page. -/
def read (r : Reader) (query : Text) : Parsed :=
  let whole := (r.readSubquery false (.start query)).val
  if whole.restricted then ⟨whole.result.getD (.thing []), whole.state⟩
  else
    let combined := r.combine .conjunctive r.defaults whole.result whole.state
    ⟨combined.result.getD (.thing []), combined.state⟩

end Reader

end InlineQuery
