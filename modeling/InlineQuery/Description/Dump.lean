/-
Descriptions as JSON, for tools: every node with its kind, its size and
depth, and the print requests attached to it.
-/
import InlineQuery.Description.Measure
import InlineQuery.Json.Basic

namespace InlineQuery

namespace Description

/-- A print request: its label and what it shows. -/
def dumpPrint (request : PrintRequest) : Json :=
  .record [("label".toList, .text request.label), ("target".toList, .text request.mode.target)]

/-- A node: the members that depend on its kind, its size and depth, and its
print requests if there are any. -/
def dumpNode (members : List (Text × Json)) (size depth : Nat) (prints : List PrintRequest) :
    Json :=
  let requests :=
    if prints.isEmpty then [] else [("print_requests".toList, .array (prints.map dumpPrint))]
  .record (members ++ [("size".toList, .nat size), ("depth".toList, .nat depth)] ++ requests)

mutual

/-- The tree as JSON. -/
def dump : Description → Json
  | .thing ps => dumpNode [("type".toList, .text "thing".toList)] 0 0 ps
  | .value item property comparator ps =>
    dumpNode
      [ ("type".toList, .text "value".toList),
        ("value".toList, .text item.write),
        ("value_type".toList, .text item.valueType.name),
        ("comparator".toList, .text comparator.name),
        ("property".toList, (property.map fun p => Json.text p.write).getD .null) ]
      1 0 ps
  | .categories pages hierarchy ps =>
    dumpNode
      [ ("type".toList, .text "class".toList),
        ("categories".toList, .texts (pages.map Page.title)) ]
      (size (.categories pages hierarchy ps)) 0 ps
  | .inNamespace id label ps =>
    dumpNode
      [ ("type".toList, .text "namespace".toList),
        ("namespace".toList, .integer id),
        ("label".toList, .text label) ]
      1 0 ps
  | .concept page ps =>
    dumpNode
      [ ("type".toList, .text "concept".toList),
        ("concept".toList, .text page.title) ]
      1 0 ps
  | .someProperty property inner ps =>
    dumpNode
      [ ("type".toList, .text "some_property".toList),
        ("property".toList, .text property.write),
        ("description".toList, dump inner) ]
      (1 + size inner) (1 + depth inner) ps
  | .conjunction children ps =>
    dumpNode
      [ ("type".toList, .text "conjunction".toList),
        ("children".toList, .array (dumpAll children)) ]
      (sizeAll children) (depthAll children) ps
  | .disjunction children _ always ps =>
    dumpNode
      [ ("type".toList, .text "disjunction".toList),
        ("true".toList, .bool always),
        ("children".toList, .array (dumpAll children)) ]
      (sizeAll children) (depthAll children) ps

/-- The trees as JSON. -/
def dumpAll : List Description → List Json
  | [] => []
  | child :: rest => dump child :: dumpAll rest

end

end Description

end InlineQuery
