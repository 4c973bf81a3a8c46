/-
Atoms without subqueries: category lists, concepts, pages and namespaces,
and the end that all atoms have in common.

An atom ends at `]]`. A reader that finds something else there reports it
and goes on behind the next `]]`, so that what is wrong with one atom never
spills over into the next.
-/
import InlineQuery.Reader.Combine
import InlineQuery.Reader.Value
import InlineQuery.Text.Case.Lower

namespace InlineQuery

namespace Reader

/-- What came of a part of a query: a condition if there is any, and whether
it settles the namespace of the pages. -/
structure Outcome where
  result : Option Description
  restricted : Bool
  state : State

-- ============================================================ closing atoms

/-- The text in front of the next `]]`, and the chunk behind that text:
`]]`, or nothing at the end of the query. -/
def skipToClosing (r : Reader) (s : State) : Text × Chunk :=
  let first := r.nextAt .closingBrackets s
  if first.text = Block.atom.closing then ([], first)
  else (first.text, r.nextAt .closingBrackets first.state)

/-- The default restriction is added to what an atom means, if it is asked
for and the atom did not settle the namespace itself. -/
def restrictAtom (r : Reader) (restrict restricted : Bool) (result : Option Description)
    (s : State) : Outcome :=
  match result, r.defaults with
  | some _, some defaults =>
    if restrict && !restricted then
      let combined := r.combine .conjunctive result (some defaults) s
      ⟨combined.result, true, combined.state⟩
    else ⟨result, restricted, s⟩
  | _, _ => ⟨result, restricted, s⟩

/-- A label behind a single bar is skipped and reported. -/
def skipLabel (r : Reader) (c : Chunk) : Chunk :=
  if Token.ofChunk c.text = .bar then
    let (content, closing) := r.skipToClosing c.state
    ⟨closing.text, closing.state.report (.trailingContent ('|' :: content))⟩
  else c

/-- Where `]]` should stand: anything else is reported, and everything up to
the next `]]` skipped. -/
def expectClosing (r : Reader) (c : Chunk) : State :=
  if c.text = Block.atom.closing then c.state
  else if c.text.isEmpty then c.state.report .missingClosingBrackets
  else
    let (_, closing) := r.skipToClosing (c.state.report (.misplacedSymbol c.text))
    if closing.text.isEmpty then closing.state.report .missingClosingBrackets
    else closing.state

/-- The block of an atom is closed. -/
def leaveAtom (s : State) : State :=
  if s.blocks.head? = some .atom then s.leave
  else s.leave.report (.mismatchedDelimiter s.expected? (some Block.atom.closing))

/-- The end of an atom, at the chunk `c`. `mark` is the number of
diagnostics when the atom began: an atom without any condition is reported
unless something else was. -/
def finishAtom (r : Reader) (mark : Nat) (restrict restricted : Bool)
    (result : Option Description) (c : Chunk) : Outcome :=
  let s :=
    if result.isNone && c.state.diagnostics.length == mark then c.state.report .badAtom
    else c.state
  let outcome := r.restrictAtom restrict restricted result s
  let labelled := r.skipLabel ⟨c.text, outcome.state⟩
  { outcome with state := leaveAtom (r.expectClosing labelled) }

theorem skipToClosing_length_le (r : Reader) (s : State) :
    (r.skipToClosing s).2.state.rest.length ≤ s.rest.length := by
  have h := nextAt_length_le r .closingBrackets s
  unfold skipToClosing
  dsimp only
  split
  · exact h
  · exact Nat.le_trans (nextAt_length_le r .closingBrackets _) h

@[simp] theorem rest_restrictAtom (r : Reader) (restrict restricted : Bool)
    (result : Option Description) (s : State) :
    (r.restrictAtom restrict restricted result s).state.rest = s.rest := by
  unfold restrictAtom
  split
  · split
    · exact rest_combine ..
    · rfl
  · rfl

theorem skipLabel_length_le (r : Reader) (c : Chunk) :
    (r.skipLabel c).state.rest.length ≤ c.state.rest.length := by
  rw [skipLabel]
  split
  · exact skipToClosing_length_le r c.state
  · exact Nat.le_refl _

theorem expectClosing_length_le (r : Reader) (c : Chunk) :
    (r.expectClosing c).rest.length ≤ c.state.rest.length := by
  rw [expectClosing]
  split
  · exact Nat.le_refl _
  · split
    · exact Nat.le_refl _
    · have := skipToClosing_length_le r (c.state.report (.misplacedSymbol c.text))
      dsimp only
      split <;> exact this

@[simp] theorem rest_leaveAtom (s : State) : (leaveAtom s).rest = s.rest := by
  rw [leaveAtom]
  split <;> rfl

theorem finishAtom_length_le (r : Reader) (mark : Nat) (restrict restricted : Bool)
    (result : Option Description) (c : Chunk) :
    (r.finishAtom mark restrict restricted result c).state.rest.length ≤
      c.state.rest.length := by
  rw [finishAtom]
  dsimp only
  rw [rest_leaveAtom]
  refine Nat.le_trans (expectClosing_length_le r _) ?_
  refine Nat.le_trans (skipLabel_length_le r _) ?_
  rw [rest_restrictAtom]
  split <;> exact Nat.le_refl _

/-- An atom that is given up. -/
def abandonAtom (r : Reader) (mark : Nat) (restrict : Bool) (s : State) : Outcome :=
  r.finishAtom mark restrict false none (r.skipToClosing s).2

theorem abandonAtom_length_le (r : Reader) (mark : Nat) (restrict : Bool) (s : State) :
    (r.abandonAtom mark restrict s).state.rest.length ≤ s.rest.length :=
  Nat.le_trans (finishAtom_length_le ..) (skipToClosing_length_le r s)

-- ================================================= category lists, concepts

/-- The two kinds of atoms that start with the name of a namespace. -/
inductive ClassKind
  | category
  | concept
deriving Repr, DecidableEq

/-- The kind of atom that a chunk such as `Category:` begins. -/
def classKind? (config : Config) (chunk : Text) : Option ClassKind :=
  match Text.stripLast? ':' chunk with
  | none => none
  | some name =>
    let name := Text.lower (Text.replace '_' ' ' (Text.trim name))
    if config.categoryNames.any fun label => Text.lower label == name then some .category
    else if config.conceptNames.any fun label => Text.lower label == name then some .concept
    else none

/-- The condition of one name in a category list or concept atom, and the
problem if it is no title. -/
def classMember (config : Config) (kind : ClassKind) (t : Text) :
    Option Description × Option Diagnostic :=
  match normalizeTitle? config.capitalLinks t with
  | none => (none, some (.invalidValue t .page))
  | some title =>
    match kind with
    | .category =>
      let page : Page := ⟨NamespaceId.category, config.categoryLabel, title⟩
      (some (.categories [page] config.expandsHierarchy []), none)
    | .concept => (some (.concept ⟨NamespaceId.concept, config.conceptLabel, title⟩ []), none)

/-- The diagnostic, if there is one, is reported. -/
def reportAny (problem : Option Diagnostic) (s : State) : State :=
  match problem with
  | some problem => s.report problem
  | none => s

@[simp] theorem rest_reportAny (problem : Option Diagnostic) (s : State) :
    (reportAny problem s).rest = s.rest := by
  cases problem <;> rfl

/-- The members of a category list or concept atom read so far, and the
chunk that ends them. -/
structure Members where
  result : Option Description
  terminator : Chunk

/-- The members from here on. A `+` among them means nothing, since every
page is in some category; a concept atom has one member only. -/
def readClass (r : Reader) (kind : ClassKind) (result : Option Description) (s : State) :
    Members :=
  let name := r.next s
  let token := Token.ofChunk name.text
  if token.isDelimiter then ⟨result, name⟩
  else
    let combined : Obtained :=
      if token = .wildcard then ⟨result, name.state⟩
      else
        let (condition, problem) := classMember r.config kind name.text
        r.combine .disjunctive result condition (reportAny problem name.state)
    let following := r.next combined.state
    if kind = .category ∧ Token.ofChunk following.text = .bars then
      readClass r kind combined.result following.state
    else ⟨combined.result, following⟩
termination_by s.rest.length
decreasing_by
  rename_i hd _
  have hname : (r.next s).text ≠ [] := by
    intro hnil
    refine hd ?_
    show (Token.ofChunk (r.next s).text).isDelimiter = true
    rw [hnil]
    rfl
  have h₁ := next_length_lt hname
  refine Nat.lt_of_le_of_lt (next_length_le r _) ?_
  split
  · exact h₁
  · rw [rest_combine, rest_reportAny]
    exact h₁

theorem readClass_length_le (r : Reader) (kind : ClassKind) (result : Option Description)
    (s : State) : (r.readClass kind result s).terminator.state.rest.length ≤ s.rest.length := by
  fun_induction readClass r kind result s with
  | case1 result s name token h => exact next_length_le r s
  | case2 result s name token h combined following hmore ih =>
    refine Nat.le_trans ih (Nat.le_trans (next_length_le r _) ?_)
    have hname := next_length_le r s
    simp only [combined]
    split
    · exact hname
    · simpa using hname
  | case3 result s name token h combined following hmore =>
    refine Nat.le_trans (next_length_le r _) ?_
    have hname := next_length_le r s
    simp only [combined]
    split
    · exact hname
    · simpa using hname

/-- `[[Category:A||B]]` or `[[Concept:C]]`, behind the colon. -/
def classAtom (r : Reader) (kind : ClassKind) (mark : Nat) (restrict : Bool) (s : State) :
    Outcome :=
  let members := r.readClass kind none s
  r.finishAtom mark restrict false members.result members.terminator

theorem classAtom_length_le (r : Reader) (kind : ClassKind) (mark : Nat) (restrict : Bool)
    (s : State) : (r.classAtom kind mark restrict s).state.rest.length ≤ s.rest.length :=
  Nat.le_trans (finishAtom_length_le ..) (readClass_length_le r kind none s)

-- ===================================================== pages and namespaces

/-- The name in front of a `+` that stands for all pages of a namespace, as
in `Help:+` or `:+`. -/
def namespaceName? (t : Text) : Option Text :=
  let rest := match t with
    | ':' :: rest => if rest.contains ':' then rest else t
    | _ => t
  match Text.splitOnce? ':' rest with
  | some (name, title) => if Text.trim title = ['+'] then some name else none
  | none => none

/-- The condition of one alternative in an atom that names pages, and the
problem if it names none. The name of an unknown namespace is skipped. -/
def articleMember (config : Config) (t : Text) : Option Description × Option Diagnostic :=
  match namespaceName? t with
  | some name => ((config.namespaceId? name).map (namespaceOf config), none)
  | none =>
    match page? config t with
    | some page => (some (.value (.page page) none .equal []), none)
    | none => (none, some (.invalidValue t .page))

/-- `[[Berlin||Paris]]`, `[[Help:+]]` or `[[:Category:City]]`, of which the
chunk `c` and, as `result`, the alternatives in front of it have been
read. Naming pages settles the namespace. -/
def articleAtom (r : Reader) (mark : Nat) (restrict : Bool) (result : Option Description)
    (c : Chunk) : Outcome :=
  if Token.ofChunk c.text = .openQuery then
    r.abandonAtom mark restrict (c.state.report .misplacedSubquery)
  else
    let (condition, problem) := articleMember r.config c.text
    let combined := r.combine .disjunctive result condition (reportAny problem c.state)
    let following := r.nextAt .atomContent combined.state
    if Token.ofChunk following.text = .bars then
      articleAtom r mark restrict combined.result (r.nextAt .atomContent following.state)
    else r.finishAtom mark restrict true combined.result following
termination_by c.state.rest.length
decreasing_by
  rename_i h
  refine Nat.lt_of_le_of_lt (nextAt_length_le r _ _) ?_
  have hne : following.text ≠ [] := by
    intro hnil
    rw [hnil] at h
    cases h
  refine Nat.lt_of_lt_of_le (nextAt_length_lt hne) ?_
  exact Nat.le_of_eq (by rw [rest_combine, rest_reportAny])

theorem articleAtom_length_le (r : Reader) (mark : Nat) (restrict : Bool)
    (result : Option Description) (c : Chunk) :
    (r.articleAtom mark restrict result c).state.rest.length ≤ c.state.rest.length := by
  fun_induction articleAtom r mark restrict result c with
  | case1 result c h => exact abandonAtom_length_le r mark restrict _
  | case2 result c h condition problem hc combined following hmore ih =>
    refine Nat.le_trans ih (Nat.le_trans (nextAt_length_le r _ _) ?_)
    refine Nat.le_trans (nextAt_length_le r _ _) ?_
    simp [combined]
  | case3 result c h condition problem hc combined following hmore =>
    refine Nat.le_trans (finishAtom_length_le ..) (Nat.le_trans (nextAt_length_le r _ _) ?_)
    simp [combined]

end Reader

end InlineQuery
