/-
Sessions: a reader that is used again and again. The diagnostics of a
session are those of the query read last, and of the combinations made
since.
-/
import InlineQuery.Query

namespace InlineQuery

/-- A reader in use. -/
structure Session where
  reader : Reader
  diagnostics : List Diagnostic

namespace Session

/-- A new session on a wiki. -/
def ofConfig (config : Config) : Session := ⟨.ofConfig config, []⟩

/-- The restriction of queries that name no namespace is replaced; without
a list there is none. -/
def setDefaultNamespaces (ids : Option (List NamespaceId)) (s : Session) : Session :=
  { s with reader := { s.reader with
      defaults := ids.map (Reader.restriction s.reader.config) } }

/-- A query is read; what was reported before is forgotten. -/
def read (query : Text) (s : Session) : Query × Session :=
  let q := Query.read s.reader query
  (q, { s with diagnostics := q.diagnostics })

/-- Two conditions are combined; a problem is added to what was reported
before. -/
def combine (mode : Mode) (current incoming : Option Description) (s : Session) :
    Option Description × Session :=
  let combined := InlineQuery.combine s.reader.config.features mode current incoming
  (combined.result, { s with diagnostics := s.diagnostics ++ combined.problem.toList })

end Session

end InlineQuery
