/-
Checking a query: reading it, attaching the output columns it is to have,
and cutting it down to the limits of the wiki.
-/
import InlineQuery.Query

namespace InlineQuery

/-- What is to be checked, and how. -/
structure Check where
  query : Text
  config : Config := {}
  /-- Default namespaces to use instead of the configured ones. -/
  defaultNamespaces : Option (List NamespaceId) := none
  /-- Print requests such as `?Population`. -/
  prints : List Text := []
  /-- Whether the limits apply. -/
  prune : Bool := false
  /-- Limits to use instead of the configured ones. -/
  maxSize : Option Nat := none
  maxDepth : Option Nat := none

/-- Why a query cannot be checked. -/
inductive CheckError
  /-- The query is blank. -/
  | noQuery
  /-- A text that is no print request. -/
  | invalidPrintRequest (request : Text)
deriving Repr, DecidableEq

/-- What is wrong, in English. -/
def CheckError.message : CheckError → Text
  | .noQuery => "No query provided. Pass it as argument or pipe it to stdin.".toList
  | .invalidPrintRequest request =>
    "Invalid print request: '".toList ++ request ++ "' (expected e.g. '?Population')".toList

namespace Check

/-- The print requests, or the first text that is none. -/
def readPrints (categoryNames : List Text) : List Text → Except CheckError (List PrintRequest)
  | [] => .ok []
  | t :: ts =>
    match PrintRequest.read? categoryNames t with
    | none => .error (.invalidPrintRequest t)
    | some request => (readPrints categoryNames ts).map (request :: ·)

/-- The reader that the check asks for. -/
def reader (c : Check) : Reader :=
  let standard := Reader.ofConfig c.config
  match c.defaultNamespaces with
  | some ids => { standard with defaults := some (Reader.restriction c.config ids) }
  | none => standard

/-- The checked query. -/
def run (c : Check) : Except CheckError Query :=
  if Text.isBlankText c.query then .error .noQuery
  else
    let q := Query.read c.reader c.query
    match readPrints c.config.categoryNames c.prints with
    | .error e => .error e
    | .ok requests =>
      let q := { q with
        description := q.description.withPrints (q.description.prints ++ requests) }
      if c.prune then
        .ok (q.applyLimits (c.maxSize.getD c.config.maxSize) (c.maxDepth.getD c.config.maxDepth))
      else .ok q

end Check

end InlineQuery
