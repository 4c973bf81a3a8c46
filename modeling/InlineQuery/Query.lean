/-
Queries: a description together with everything that went wrong while it was
read, and everything that was cut off it later.
-/
import InlineQuery.Description.Prune
import InlineQuery.Reader.Subquery

namespace InlineQuery

/-- A query that was read. The fragments that limits have cut off are in
query syntax, in the order they were dropped. -/
structure Query where
  description : Description
  diagnostics : List Diagnostic
  pruned : List Text

namespace Query

/-- The query that a text writes. -/
def read (r : Reader) (t : Text) : Query :=
  let parsed := r.read t
  ⟨parsed.description, parsed.state.diagnostics, []⟩

/-- The query cut down to a size and a depth. -/
def applyLimits (maxSize maxDepth : Nat) (q : Query) : Query :=
  let pruned := q.description.prune ⟨maxSize, maxDepth⟩
  { q with description := pruned.description, pruned := q.pruned ++ pruned.dropped }

/-- The number of elementary conditions. -/
def size (q : Query) : Nat := q.description.size

/-- The number of property conditions inside one another. -/
def depth (q : Query) : Nat := q.description.depth

/-- The features that the query makes use of. -/
def features (q : Query) : FeatureSet := q.description.features

/-- Something in the query was not understood. -/
def hasDiagnostics (q : Query) : Bool := !q.diagnostics.isEmpty

end Query

end InlineQuery
