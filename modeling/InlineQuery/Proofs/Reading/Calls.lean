/-
The calls that a reading makes.

What is said of every atom and every combination, at any depth of a query, is
said of calls. `Makes` lists which call makes which other ones, one
constructor for each call in the text of a reader, with the condition under
which it is made; `Reached` are the calls made in reading one query.

Two loops run over alternatives that have been read already, one to restrict
them and one to join them. They are no calls of their own: what they do for one
alternative stands in the call that runs them, with the alternatives in front
of it done.
-/
import Mathlib.Logic.Relation
import InlineQuery.Proofs.Reading.Blocks

namespace InlineQuery

namespace Reader

variable {r : Reader}

-- ==================================================================== calls

/-- A call of one of the readers, or of an operation that may report
something, with its arguments. -/
inductive Call
  /-- Of `read`. -/
  | query (query : Text)
  /-- Of `readSubquery`. -/
  | subquery (restrict : Bool) (s : State)
  /-- Of `readAlternatives`. -/
  | alternatives (mark : Nat) (restrict : Bool) (p : Progress) (s : State)
  /-- Of `finishAlternative`. -/
  | finishing (p : Progress) (s : State)
  /-- Of `conclude`. -/
  | concluding (mark : Nat) (p : Progress) (s : State)
  /-- Of `readAtom`. -/
  | atom (restrict : Bool) (s : State)
  /-- Of `readProperty`. -/
  | property (mark : Nat) (restrict : Bool) (name : Text) (s : State)
  /-- Of `readValues`. -/
  | values (c : Chain) (result : Option Description) (s : State)
  /-- Of `readOneValue`. -/
  | oneValue (c : Chain) (result : Option Description) (s : State)
  /-- Of `readValueFrom`. -/
  | valueText (openBrackets : Nat) (value : Text) (s : State)
  /-- Of `readClass`. -/
  | members (kind : ClassKind) (result : Option Description) (s : State)
  /-- Of `articleAtom`. -/
  | articles (mark : Nat) (restrict : Bool) (result : Option Description) (c : Chunk)
  /-- Of `finishAtom`. -/
  | closing (mark : Nat) (restrict restricted : Bool) (result : Option Description) (c : Chunk)
  /-- Of `combine`. -/
  | combination (mode : Mode) (current incoming : Option Description) (s : State)
  /-- Of `leaveAtom`. -/
  | leaving (s : State)

namespace Call

/-- The state in which the call is made. -/
def before : Call → State
  | query t => .start t
  | subquery _ s => s
  | alternatives _ _ _ s => s
  | finishing _ s => s
  | concluding _ _ s => s
  | atom _ s => s
  | property _ _ _ s => s
  | values _ _ s => s
  | oneValue _ _ s => s
  | valueText _ _ s => s
  | members _ _ s => s
  | articles _ _ _ c => c.state
  | closing _ _ _ _ c => c.state
  | combination _ _ _ s => s
  | leaving s => s

/-- The state in which the call ends. -/
def after (r : Reader) : Call → State
  | query t => (r.read t).state
  | subquery restrict s => (r.readSubquery restrict s).val.state
  | alternatives mark restrict p s => (r.readAlternatives mark restrict p s).val.state
  | finishing p s => (r.finishAlternative p s).2
  | concluding mark p s => (r.conclude mark p s).state
  | atom restrict s => (r.readAtom restrict s).val.state
  | property mark restrict name s => (r.readProperty mark restrict name s).val.state
  | values c result s => (r.readValues c result s).val.terminator.state
  | oneValue c result s => (r.readOneValue c result s).val.terminator.state
  | valueText openBrackets value s =>
    { s with rest := (readValueFrom r.config.labels openBrackets value s.rest).rest }
  | members kind result s => (r.readClass kind result s).terminator.state
  | articles mark restrict result c => (r.articleAtom mark restrict result c).state
  | closing mark restrict restricted result c =>
    (r.finishAtom mark restrict restricted result c).state
  | combination mode current incoming s => (r.combine mode current incoming s).state
  | leaving s => leaveAtom s

/-- One number for each function. A function calls one of higher rank only
when less is left to read. -/
def rank : Call → Nat
  | leaving .. => 0
  | combination .. => 1
  | closing .. => 2
  | articles .. => 3
  | members .. => 4
  | valueText .. => 5
  | oneValue .. => 6
  | values .. => 7
  | property .. => 8
  | atom .. => 9
  | concluding .. => 10
  | finishing .. => 11
  | alternatives .. => 12
  | subquery .. => 13
  | query .. => 14

end Call

-- ===================================================== what the calls yield

/-- The atom that begins with the next chunk. -/
def atomAt (r : Reader) (s : State) : Outcome := (r.readAtom false (r.next s).state).val

/-- The subquery that begins with the next chunk. -/
def subqueryAt (r : Reader) (restrict : Bool) (s : State) : Outcome :=
  (r.readSubquery restrict ((r.next s).state.enter .subquery)).val

/-- The alternative under way, finished in front of the next chunk. -/
def finishedAt (r : Reader) (p : Progress) (s : State) : Progress × State :=
  r.finishAlternative p (r.next s).state

/-- The value that begins with the next chunk and is written out. -/
def literalAt (r : Reader) (s : State) : ValueText :=
  readValue r.config.labels (r.next s).text (r.next s).state.rest

/-- The members of a class so far, with the one that is the next chunk. -/
def memberAt (r : Reader) (kind : ClassKind) (result : Option Description) (s : State) :
    Obtained :=
  if Token.ofChunk (r.next s).text = .wildcard then ⟨result, (r.next s).state⟩
  else
    r.combine .disjunctive result (classMember r.config kind (r.next s).text).1
      (reportAny (classMember r.config kind (r.next s).text).2 (r.next s).state)

/-- The pages of an atom so far, with the one that a chunk names. -/
def articleAt (r : Reader) (result : Option Description) (c : Chunk) : Obtained :=
  r.combine .disjunctive result (articleMember r.config c.text).1
    (reportAny (articleMember r.config c.text).2 c.state)

@[simp] theorem rest_memberAt (r : Reader) (kind : ClassKind) (result : Option Description)
    (s : State) : (r.memberAt kind result s).state.rest = (r.next s).state.rest := by
  unfold memberAt
  split
  · rfl
  · rw [rest_combine, rest_reportAny]

@[simp] theorem rest_articleAt (r : Reader) (result : Option Description) (c : Chunk) :
    (r.articleAt result c).state.rest = c.state.rest := by
  rw [articleAt, rest_combine, rest_reportAny]

theorem blocks_memberAt (r : Reader) (kind : ClassKind) (result : Option Description)
    (s : State) : (r.memberAt kind result s).state.blocks = s.blocks := by
  unfold memberAt
  split
  · rfl
  · rw [blocks_combine]
    cases (classMember r.config kind (r.next s).text).2 <;> rfl

theorem blocks_articleAt (r : Reader) (result : Option Description) (c : Chunk) :
    (r.articleAt result c).state.blocks = c.state.blocks := by
  rw [articleAt, blocks_combine]
  cases (articleMember r.config c.text).2 <;> rfl

-- =================================================================== makers

/-- The first call makes the second one. -/
inductive Makes (r : Reader) : Call → Call → Prop
  | whole (query : Text) : Makes r (.query query) (.subquery false (.start query))
  | defaults (query : Text)
      (h : (r.readSubquery false (.start query)).val.restricted = false) :
      Makes r (.query query)
        (.combination .conjunctive r.defaults (r.readSubquery false (.start query)).val.result
          (r.readSubquery false (.start query)).val.state)
  | concludeEmpty (restrict : Bool) (s : State) (h : (r.next s).text = []) :
      Makes r (.subquery restrict s)
        (.concluding s.diagnostics.length (.start restrict) (leaveAtEnd (r.next s).state))
  | alternatives (restrict : Bool) (s : State) (h : (r.next s).text ≠ []) :
      Makes r (.subquery restrict s)
        (.alternatives s.diagnostics.length restrict (.start restrict) s)
  -- the alternatives of a subquery
  | atom (mark : Nat) (restrict : Bool) (p : Progress) (s : State)
      (h : Token.ofChunk (r.next s).text = .openAtom) :
      Makes r (.alternatives mark restrict p s) (.atom false (r.next s).state)
  | addAtom (mark : Nat) (restrict : Bool) (p : Progress) (s : State)
      (h : Token.ofChunk (r.next s).text = .openAtom) :
      Makes r (.alternatives mark restrict p s)
        (.combination .conjunctive p.current (r.atomAt s).result (r.atomAt s).state)
  | behindAtom (mark : Nat) (restrict : Bool) (p : Progress) (s : State)
      (h : Token.ofChunk (r.next s).text = .openAtom) :
      Makes r (.alternatives mark restrict p s)
        (.alternatives mark restrict (r.addCondition p (r.atomAt s)).1
          (r.addCondition p (r.atomAt s)).2)
  | subquery (mark : Nat) (restrict : Bool) (p : Progress) (s : State)
      (h : Token.ofChunk (r.next s).text = .openQuery) :
      Makes r (.alternatives mark restrict p s)
        (.subquery false ((r.next s).state.enter .subquery))
  | addSubquery (mark : Nat) (restrict : Bool) (p : Progress) (s : State)
      (h : Token.ofChunk (r.next s).text = .openQuery) :
      Makes r (.alternatives mark restrict p s)
        (.combination .conjunctive p.current (r.subqueryAt false s).result
          (r.subqueryAt false s).state)
  | behindSubquery (mark : Nat) (restrict : Bool) (p : Progress) (s : State)
      (h : Token.ofChunk (r.next s).text = .openQuery) :
      Makes r (.alternatives mark restrict p s)
        (.alternatives mark restrict (r.addCondition p (r.subqueryAt false s)).1
          (r.addCondition p (r.subqueryAt false s)).2)
  | finish (mark : Nat) (restrict : Bool) (p : Progress) (s : State)
      (h : Token.ofChunk (r.next s).text ∈
        [Token.bars, .orWord, .closeQuery, .finish]) :
      Makes r (.alternatives mark restrict p s) (.finishing p (r.next s).state)
  | behindOr (mark : Nat) (restrict : Bool) (p : Progress) (s : State)
      (h : Token.ofChunk (r.next s).text = .bars ∨ Token.ofChunk (r.next s).text = .orWord) :
      Makes r (.alternatives mark restrict p s)
        (.alternatives mark restrict (r.finishedAt p s).1 (r.finishedAt p s).2)
  | concludeAtClosing (mark : Nat) (restrict : Bool) (p : Progress) (s : State)
      (h : Token.ofChunk (r.next s).text = .closeQuery)
      (hopen : (r.finishedAt p s).2.blocks.head? = some .subquery) :
      Makes r (.alternatives mark restrict p s)
        (.concluding mark (r.finishedAt p s).1 (r.finishedAt p s).2.leave)
  | concludeAtEnd (mark : Nat) (restrict : Bool) (p : Progress) (s : State)
      (h : Token.ofChunk (r.next s).text = .finish) :
      Makes r (.alternatives mark restrict p s)
        (.concluding mark (r.finishedAt p s).1 (leaveAtEnd (r.finishedAt p s).2))
  | behindWildcard (mark : Nat) (restrict : Bool) (p : Progress) (s : State)
      (h : Token.ofChunk (r.next s).text = .wildcard) :
      Makes r (.alternatives mark restrict p s)
        (.alternatives mark restrict p (r.next s).state)
  | behindUnexpected (mark : Nat) (restrict : Bool) (p : Progress) (s : State)
      (h : Unexpected (r.next s).text) :
      Makes r (.alternatives mark restrict p s)
        (.alternatives mark restrict p
          ((r.next s).state.report (.unexpectedPart (r.next s).text)))
  | restrictEarlier (p : Progress) (s : State) (defaults : Description)
      (front back : List (Option Description)) (d : Option Description)
      (hdefaults : r.defaults = some defaults) (h : (p.restricted && !p.restrict) = true)
      (hfinished : p.finished = front ++ d :: back) :
      Makes r (.finishing p s)
        (.combination .conjunctive d (some defaults) (r.restrictAll defaults front s).2)
  | restrictCurrent (p : Progress) (s : State) (defaults : Description)
      (hdefaults : r.defaults = some defaults) (h : (!p.restricted && p.restrict) = true) :
      Makes r (.finishing p s) (.combination .conjunctive p.current (some defaults) s)
  | joinAlternative (mark : Nat) (p : Progress) (s : State)
      (front back : List (Option Description)) (d : Option Description)
      (h : p.finished.any Option.isNone = false) (hfinished : p.finished = front ++ d :: back) :
      Makes r (.concluding mark p s)
        (.combination .disjunctive (r.combineAll none front s).result d
          (r.combineAll none front s).state)
  -- atoms by their kind
  | members (kind : ClassKind) (restrict : Bool) (s : State)
      (h : classKind? r.config (Text.trim (r.firstChunk s)) = some kind) :
      Makes r (.atom restrict s) (.members kind none (r.opened s))
  | closeClass (kind : ClassKind) (restrict : Bool) (s : State)
      (h : classKind? r.config (Text.trim (r.firstChunk s)) = some kind) :
      Makes r (.atom restrict s)
        (.closing s.diagnostics.length restrict false (r.readClass kind none (r.opened s)).result
          (r.readClass kind none (r.opened s)).terminator)
  | closeEmpty (restrict : Bool) (s : State)
      (hclass : classKind? r.config (Text.trim (r.firstChunk s)) = none)
      (h : StartsEmpty (Text.trim (r.firstChunk s))) :
      Makes r (.atom restrict s)
        (.closing s.diagnostics.length restrict false none
          ⟨Text.trim (r.firstChunk s), r.opened s⟩)
  | escapedArticles (restrict : Bool) (s : State) (h : r.StartsProperty s)
      (hcolon : (r.firstChunk s).head? = some ':') :
      Makes r (.atom restrict s)
        (.articles s.diagnostics.length restrict none
          ⟨Text.trim (r.firstChunk s ++ (r.nextAt .atomContent (r.opened s)).text),
            (r.nextAt .atomContent (r.opened s)).state⟩)
  | articles (restrict : Bool) (s : State)
      (hclass : classKind? r.config (Text.trim (r.firstChunk s)) = none)
      (hempty : ¬ StartsEmpty (Text.trim (r.firstChunk s)))
      (h : Token.ofChunk (r.next (r.opened s)).text ≠ .separator) :
      Makes r (.atom restrict s)
        (.articles s.diagnostics.length restrict none ⟨Text.trim (r.firstChunk s), r.opened s⟩)
  | property (restrict : Bool) (s : State) (h : r.StartsProperty s)
      (hcolon : (r.firstChunk s).head? ≠ some ':') :
      Makes r (.atom restrict s)
        (.property s.diagnostics.length restrict (r.firstChunk s) (r.next (r.opened s)).state)
  -- category lists, concepts and pages
  | addMember (kind : ClassKind) (result : Option Description) (s : State)
      (h : (Token.ofChunk (r.next s).text).isDelimiter = false)
      (hwildcard : Token.ofChunk (r.next s).text ≠ .wildcard) :
      Makes r (.members kind result s)
        (.combination .disjunctive result (classMember r.config kind (r.next s).text).1
          (reportAny (classMember r.config kind (r.next s).text).2 (r.next s).state))
  | behindMember (kind : ClassKind) (result : Option Description) (s : State)
      (h : (Token.ofChunk (r.next s).text).isDelimiter = false)
      (hmore : kind = .category ∧
        Token.ofChunk (r.next (r.memberAt kind result s).state).text = .bars) :
      Makes r (.members kind result s)
        (.members kind (r.memberAt kind result s).result
          (r.next (r.memberAt kind result s).state).state)
  | closeMisplaced (mark : Nat) (restrict : Bool) (result : Option Description) (c : Chunk)
      (h : Token.ofChunk c.text = .openQuery) :
      Makes r (.articles mark restrict result c)
        (.closing mark restrict false none
          (r.skipToClosing (c.state.report .misplacedSubquery)).2)
  | addArticle (mark : Nat) (restrict : Bool) (result : Option Description) (c : Chunk)
      (h : Token.ofChunk c.text ≠ .openQuery) :
      Makes r (.articles mark restrict result c)
        (.combination .disjunctive result (articleMember r.config c.text).1
          (reportAny (articleMember r.config c.text).2 c.state))
  | behindArticle (mark : Nat) (restrict : Bool) (result : Option Description) (c : Chunk)
      (h : Token.ofChunk c.text ≠ .openQuery)
      (hmore : Token.ofChunk (r.nextAt .atomContent (r.articleAt result c).state).text = .bars) :
      Makes r (.articles mark restrict result c)
        (.articles mark restrict (r.articleAt result c).result
          (r.nextAt .atomContent (r.nextAt .atomContent (r.articleAt result c).state).state))
  | closeArticles (mark : Nat) (restrict : Bool) (result : Option Description) (c : Chunk)
      (h : Token.ofChunk c.text ≠ .openQuery)
      (hlast : Token.ofChunk (r.nextAt .atomContent (r.articleAt result c).state).text ≠ .bars) :
      Makes r (.articles mark restrict result c)
        (.closing mark restrict true (r.articleAt result c).result
          (r.nextAt .atomContent (r.articleAt result c).state))
  -- property conditions
  | closeNameless (mark : Nat) (restrict : Bool) (name : Text) (s : State) (problem : Diagnostic)
      (h : chain r.config name = .error problem) :
      Makes r (.property mark restrict name s)
        (.closing mark restrict false none (r.skipToClosing (s.report problem)).2)
  | values (mark : Nat) (restrict : Bool) (name : Text) (s : State) (c : Chain)
      (h : chain r.config name = .ok c) :
      Makes r (.property mark restrict name s) (.values c none s)
  | closeProperty (mark : Nat) (restrict : Bool) (name : Text) (s : State) (c : Chain)
      (inner : Description) (h : chain r.config name = .ok c)
      (hvalues : (r.readValues c none s).val.result = some inner) :
      Makes r (.property mark restrict name s)
        (.closing mark restrict false (some (c.describe inner))
          (r.readValues c none s).val.terminator)
  | closeValueless (mark : Nat) (restrict : Bool) (name : Text) (s : State) (c : Chain)
      (h : chain r.config name = .ok c)
      (hvalues : (r.readValues c none s).val.result = none) :
      Makes r (.property mark restrict name s)
        (.closing mark restrict false (some (c.describe (r.wildcard c.valueType)))
          ⟨(r.readValues c none s).val.terminator.text,
            (r.readValues c none s).val.terminator.state.report (.missingValue c.last.write)⟩)
  | oneValue (c : Chain) (result : Option Description) (s : State) :
      Makes r (.values c result s) (.oneValue c result s)
  | behindValue (c : Chain) (result : Option Description) (s : State)
      (h : Token.ofChunk (r.readOneValue c result s).val.terminator.text = .bars) :
      Makes r (.values c result s)
        (.values c (r.readOneValue c result s).val.result
          (r.readOneValue c result s).val.terminator.state)
  | addWildcard (c : Chain) (result : Option Description) (s : State)
      (h : Token.ofChunk (r.next s).text = .wildcard) :
      Makes r (.oneValue c result s)
        (.combination .disjunctive result (some (r.wildcard c.valueType)) (r.next s).state)
  | valueSubquery (c : Chain) (result : Option Description) (s : State)
      (h : Token.ofChunk (r.next s).text = .openQuery) :
      Makes r (.oneValue c result s) (.subquery true ((r.next s).state.enter .subquery))
  | addValueSubquery (c : Chain) (result : Option Description) (s : State)
      (h : Token.ofChunk (r.next s).text = .openQuery) (htype : c.valueType = .page) :
      Makes r (.oneValue c result s)
        (.combination .disjunctive result (r.subqueryAt true s).result
          (r.subqueryAt true s).state)
  | dropValueSubquery (c : Chain) (result : Option Description) (s : State)
      (h : Token.ofChunk (r.next s).text = .openQuery) (htype : c.valueType ≠ .page) :
      Makes r (.oneValue c result s)
        (.combination .disjunctive result (some (.thing []))
          ((r.subqueryAt true s).state.report (.valueSubquery c.last.write)))
  | valueText (c : Chain) (result : Option Description) (s : State)
      (h : Token.ofChunk (r.next s).text = .text ∨ Token.ofChunk (r.next s).text = .orWord) :
      Makes r (.oneValue c result s) (.valueText 1 (r.next s).text (r.next s).state)
  | addLiteral (c : Chain) (result : Option Description) (s : State)
      (h : Token.ofChunk (r.next s).text = .text ∨ Token.ofChunk (r.next s).text = .orWord) :
      Makes r (.oneValue c result s)
        (.combination .disjunctive result
          (some (value r.config c.last c.valueType (r.literalAt s).value).1)
          (reportAny (value r.config c.last c.valueType (r.literalAt s).value).2
            { (r.next s).state with rest := (r.literalAt s).rest }))
  | behindBracket (openBrackets : Nat) (value : Text) (s : State)
      (h : bracketsAfter openBrackets (r.nextAt .atomContent s).text ≠ 0) :
      Makes r (.valueText openBrackets value s)
        (.valueText (bracketsAfter openBrackets (r.nextAt .atomContent s).text)
          (value ++ (r.nextAt .atomContent s).text) (r.nextAt .atomContent s).state)
  -- the end of an atom
  | restrictAtom (mark : Nat) (restrict : Bool) (d defaults : Description) (c : Chunk)
      (hdefaults : r.defaults = some defaults) (h : restrict = true) :
      Makes r (.closing mark restrict false (some d) c)
        (.combination .conjunctive (some d) (some defaults) c.state)
  | leave (mark : Nat) (restrict restricted : Bool) (result : Option Description) (c : Chunk) :
      Makes r (.closing mark restrict restricted result c)
        (.leaving (r.beforeLeaving mark restrict restricted result c))

/-- The call is made in reading the query. -/
def Reached (r : Reader) (query : Text) (call : Call) : Prop :=
  Relation.ReflTransGen r.Makes (.query query) call

-- ========================================================== less left to read

theorem next_length_lt_of_token {s : State} {token : Token}
    (h : Token.ofChunk (r.next s).text = token) (hne : token ≠ .finish) :
    (r.next s).state.rest.length < s.rest.length :=
  next_length_lt (Token.ne_nil_of_ofChunk h hne)

theorem next_length_lt_of_unexpected {s : State} (h : Unexpected (r.next s).text) :
    (r.next s).state.rest.length < s.rest.length := by
  apply next_length_lt
  intro hnil
  rw [hnil] at h
  have hfinish : Token.finish ∈ [Token.closeAtom, .separator, .bar, .text] := h
  exact absurd hfinish (by decide)

theorem next_length_lt_of_member {s : State}
    (h : (Token.ofChunk (r.next s).text).isDelimiter = false) :
    (r.next s).state.rest.length < s.rest.length := by
  apply next_length_lt
  intro hnil
  rw [hnil] at h
  cases h

-- ============================================================ loops, unrolled

theorem read_combine {query : Text}
    (h : (r.readSubquery false (.start query)).val.restricted = false) :
    (r.read query).state =
      (r.combine .conjunctive r.defaults (r.readSubquery false (.start query)).val.result
        (r.readSubquery false (.start query)).val.state).state := by
  unfold read
  dsimp only
  rw [h]
  rfl

theorem state_restrictAll_append (r : Reader) (defaults : Description)
    (front back : List (Option Description)) (s : State) :
    (r.restrictAll defaults (front ++ back) s).2 =
      (r.restrictAll defaults back (r.restrictAll defaults front s).2).2 := by
  induction front generalizing s with
  | nil => rfl
  | cons d front ih => exact ih _

theorem combineAll_append (r : Reader) (result : Option Description)
    (front back : List (Option Description)) (s : State) :
    r.combineAll result (front ++ back) s =
      r.combineAll (r.combineAll result front s).result back
        (r.combineAll result front s).state := by
  induction front generalizing result s with
  | nil => rfl
  | cons d front ih => exact ih _ _

theorem readClass_end {kind : ClassKind} {result : Option Description} {s : State}
    (h : (Token.ofChunk (r.next s).text).isDelimiter = true) :
    r.readClass kind result s = ⟨result, r.next s⟩ := by
  rw [readClass]
  exact if_pos h

theorem readClass_more {kind : ClassKind} {result : Option Description} {s : State}
    (h : (Token.ofChunk (r.next s).text).isDelimiter = false)
    (hmore : kind = .category ∧
      Token.ofChunk (r.next (r.memberAt kind result s).state).text = .bars) :
    r.readClass kind result s =
      r.readClass kind (r.memberAt kind result s).result
        (r.next (r.memberAt kind result s).state).state := by
  rw [readClass]
  simp only [h]
  exact if_pos hmore

theorem readClass_last {kind : ClassKind} {result : Option Description} {s : State}
    (h : (Token.ofChunk (r.next s).text).isDelimiter = false)
    (hlast : ¬ (kind = .category ∧
      Token.ofChunk (r.next (r.memberAt kind result s).state).text = .bars)) :
    r.readClass kind result s =
      ⟨(r.memberAt kind result s).result, r.next (r.memberAt kind result s).state⟩ := by
  rw [readClass]
  simp only [h]
  exact if_neg hlast

theorem articleAtom_misplaced {mark : Nat} {restrict : Bool} {result : Option Description}
    {c : Chunk} (h : Token.ofChunk c.text = .openQuery) :
    r.articleAtom mark restrict result c =
      r.abandonAtom mark restrict (c.state.report .misplacedSubquery) := by
  rw [articleAtom, if_pos h]

theorem articleAtom_more {mark : Nat} {restrict : Bool} {result : Option Description}
    {c : Chunk} (h : Token.ofChunk c.text ≠ .openQuery)
    (hmore : Token.ofChunk (r.nextAt .atomContent (r.articleAt result c).state).text = .bars) :
    r.articleAtom mark restrict result c =
      r.articleAtom mark restrict (r.articleAt result c).result
        (r.nextAt .atomContent (r.nextAt .atomContent (r.articleAt result c).state).state) := by
  rw [articleAtom, if_neg h]
  exact if_pos hmore

theorem articleAtom_close {mark : Nat} {restrict : Bool} {result : Option Description}
    {c : Chunk} (h : Token.ofChunk c.text ≠ .openQuery)
    (hlast : Token.ofChunk (r.nextAt .atomContent (r.articleAt result c).state).text ≠ .bars) :
    r.articleAtom mark restrict result c =
      r.finishAtom mark restrict true (r.articleAt result c).result
        (r.nextAt .atomContent (r.articleAt result c).state) :=
  articleAtom_last h hlast

end Reader

end InlineQuery
