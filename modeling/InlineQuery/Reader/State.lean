/-
The state of a reader: what it has not read yet, the blocks that are open,
and the diagnostics reported so far. Diagnostics are only ever added, and
blocks are closed innermost first.

What a reader knows beforehand is the configuration of the wiki and the
restriction that queries without a namespace of their own are put under.
-/
import InlineQuery.Chunk.Reader
import InlineQuery.Chunk.Token
import InlineQuery.Config.Basic
import InlineQuery.Description.Build
import InlineQuery.Diagnostic

namespace InlineQuery

/-- A stretch of query text that has to be closed. -/
inductive Block
  /-- From `[[` to `]]`. -/
  | atom
  /-- From `<q>` to `</q>`. -/
  | subquery
deriving Repr, DecidableEq

/-- The delimiter that closes a block. -/
def Block.closing : Block → Text
  | .atom => [']', ']']
  | .subquery => ['<', '/', 'q', '>']

/-- What a reader knows beforehand. -/
structure Reader where
  config : Config
  /-- The restriction of queries that name no namespace. -/
  defaults : Option Description

/-- Where a reader has got to. The innermost open block comes first. -/
structure State where
  rest : Text
  blocks : List Block
  diagnostics : List Diagnostic
deriving Repr, DecidableEq

namespace State

/-- The state in which the reading of a query begins. -/
def start (query : Text) : State := ⟨query, [], []⟩

/-- One more diagnostic. -/
def report (problem : Diagnostic) (s : State) : State :=
  { s with diagnostics := s.diagnostics ++ [problem] }

/-- A block has been opened. -/
def enter (block : Block) (s : State) : State := { s with blocks := block :: s.blocks }

/-- The innermost block has been closed, whichever it was. -/
def leave (s : State) : State := { s with blocks := s.blocks.tail }

/-- The delimiter that closes the innermost open block. -/
def expected? (s : State) : Option Text := s.blocks.head?.map Block.closing

@[simp] theorem rest_report (problem : Diagnostic) (s : State) :
    (s.report problem).rest = s.rest := rfl

@[simp] theorem rest_enter (block : Block) (s : State) : (s.enter block).rest = s.rest := rfl

@[simp] theorem rest_leave (s : State) : s.leave.rest = s.rest := rfl

end State

namespace Reader

-- ========================================================= default namespaces

/-- The restriction to one namespace. -/
def namespaceOf (config : Config) (id : NamespaceId) : Description :=
  .inNamespace id ((config.namespaceName? id).getD (Text.ofInt id)) []

/-- The restriction to some namespaces: to the one there is, or to any of
them. The restriction to none at all is an empty disjunction, which no page
satisfies. -/
def restriction (config : Config) (ids : List NamespaceId) : Description :=
  match ids with
  | [id] => namespaceOf config id
  | _ => Description.anyOf (ids.map (namespaceOf config))

/-- The reader for a wiki, with the default namespaces of its
configuration. -/
def ofConfig (config : Config) : Reader :=
  ⟨config, config.defaultNamespaces.map (restriction config)⟩

-- ================================================================= chunks

/-- A chunk that was read, and the state behind it. -/
structure Chunk where
  text : Text
  state : State

/-- The next chunk up to any delimiter. -/
def next (r : Reader) (s : State) : Chunk :=
  let c := Cut.next r.config.labels s.rest
  ⟨c.chunk, { s with rest := c.rest }⟩

/-- The next chunk up to a delimiter of the stop set, without blanks at its
ends. -/
def nextAt (r : Reader) (stop : StopSet) (s : State) : Chunk :=
  let c := (stop.cut r.config.labels s.rest).trimmed
  ⟨c.chunk, { s with rest := c.rest }⟩

theorem next_length_le (r : Reader) (s : State) :
    (r.next s).state.rest.length ≤ s.rest.length :=
  Cut.next_length_le r.config.labels s.rest

theorem next_length_lt {r : Reader} {s : State} (h : (r.next s).text ≠ []) :
    (r.next s).state.rest.length < s.rest.length :=
  Cut.next_length_lt h

theorem nextAt_length_le (r : Reader) (stop : StopSet) (s : State) :
    (r.nextAt stop s).state.rest.length ≤ s.rest.length :=
  StopSet.cut_length_le r.config.labels stop s.rest

theorem nextAt_length_lt {r : Reader} {stop : StopSet} {s : State}
    (h : (r.nextAt stop s).text ≠ []) :
    (r.nextAt stop s).state.rest.length < s.rest.length := by
  refine StopSet.cut_length_lt_of_chunk fun hc => h ?_
  show Text.trim _ = []
  rw [hc]
  rfl

end Reader

end InlineQuery
