/-
Reports: a query written out for tools, as JSON, and for people, as text.
-/
import InlineQuery.Description.Dump
import InlineQuery.Query

namespace InlineQuery

/-- A diagnostic as JSON: its key, its parameters and the message. -/
def Diagnostic.dump (d : Diagnostic) : Json :=
  .record
    [ ("key".toList, .text d.key),
      ("params".toList, .texts d.params),
      ("message".toList, .text d.message) ]

namespace Query

/-- The query as JSON. -/
def report (q : Query) : Json :=
  .record
    [ ("query".toList, .text q.description.write),
      ("size".toList, .nat q.size),
      ("depth".toList, .nat q.depth),
      ("features".toList, .texts q.features.names),
      ("description".toList, q.description.dump),
      ("diagnostics".toList, .array (q.diagnostics.map Diagnostic.dump)),
      ("pruned".toList, .texts q.pruned) ]

/-- A line of the text report: a heading and what it is about. -/
def line (heading content : Text) : Text := heading ++ content ++ ['\n']

/-- The query as text: itself, its measures, its columns, what was cut off
it, and what went wrong. -/
def reportText (q : Query) : Text :=
  let written := q.description.write
  let condition := if written.isEmpty then "(no condition)".toList else written
  line "query:    ".toList condition ++
  line "size:     ".toList (Text.ofNat q.size) ++
  line "depth:    ".toList (Text.ofNat q.depth) ++
  line "features: ".toList (Text.join " | ".toList q.features.names) ++
  q.description.prints.flatMap (fun request => line "print:    ".toList request.label) ++
  q.pruned.flatMap (fun fragment => line "pruned:   ".toList fragment) ++
  q.diagnostics.flatMap fun d =>
    line "warning:  ".toList (d.message ++ " [".toList ++ d.key ++ "]".toList)

end Query

end InlineQuery
