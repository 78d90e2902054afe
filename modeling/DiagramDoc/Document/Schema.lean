import DiagramDoc.Diagram.Basic
import DiagramDoc.Json.Printer

/-!
# The schema of documents

A JSON schema of the documents that diagrams are written as. Properties stand in alphabetical order,
and required names in the order in which they are written.
-/

namespace DiagramDoc.Schema

def object (members : List (String × Json)) : Json :=
  .object (members.map fun (name, value) => (name.toList, value))

def text (t : String) : Json := .text t.toList

def typed (type : String) (more : List (String × Json)) : Json :=
  object (("type", text type) :: more)

def string : Json := typed "string" []

def double : List (String × Json) := [("format", text "double")]

def number : Json := typed "number" double

def ref (name : String) : Json := object [("$ref", text ("#/$defs/" ++ name))]

def arrayOf (item : Json) : Json := typed "array" [("items", item)]

def oneOf (names : List Text) : Json := typed "string" [("enum", .array (names.map .text))]

def lines (ls : List String) : String := String.intercalate "\n" ls

def described (description : String) : Json → Json
  | .object members => .object (("description".toList, text description) :: members)
  | other => other

def record (properties : List (String × Json)) (required : List String) : List (String × Json) :=
  [("type", text "object"), ("properties", object properties),
   ("required", .array (required.map text))]

def edge : Json :=
  object <| record
    [("arrow", ref "ArrowKind"), ("from", ref "EntityId"), ("id", ref "EntityId"),
     ("label", string), ("stroke", string), ("to", ref "EntityId")]
    ["id", "from", "to", "label", "stroke", "arrow"]

def aboutEntityId : String := lines [
  "Identifier of any entity inside a [`Diagram`].",
  "",
  "All seven entity collections (nodes, edges, participants, messages, pie slices, gantt tasks,",
  "journey steps) draw from one namespace, so an `EntityId` is unique across the whole diagram and",
  "not just within its own collection. `0` is never handed out and is treated as \"missing\"."]

def entityId : Json :=
  described aboutEntityId (typed "integer" [("format", text "uint64"), ("minimum", .ofNat 0)])

def flowchart : Json :=
  object <| record [("edges", arrayOf (ref "Edge")), ("nodes", arrayOf (ref "Node"))]
    ["nodes", "edges"]

def gantt : Json :=
  object <| record
    [("dateFormat", string), ("tasks", arrayOf (ref "GanttTask")), ("title", string)]
    ["title", "dateFormat", "tasks"]

def status : Json :=
  described "Task status. The unset status serializes as the empty string."
    (oneOf ([] :: TaskStatus.all.map TaskStatus.name))

def task : Json :=
  object <| record
    [("end", string), ("id", ref "EntityId"), ("label", string), ("section", string),
     ("start", string), ("status", ref "GanttStatus")]
    ["id", "section", "label", "start", "end", "status"]

def journey : Json :=
  object <| record [("steps", arrayOf (ref "JourneyStep")), ("title", string)] ["title", "steps"]

def step : Json :=
  object <| record
    [("id", ref "EntityId"),
     ("personas", described "Ordered; duplicates allowed." (arrayOf string)),
     ("score", described "Intended range is 1..=5; not clamped." number),
     ("section", string), ("task", string)]
    ["id", "section", "task", "score", "personas"]

def message : Json :=
  object <| record
    [("from", ref "EntityId"), ("id", ref "EntityId"), ("label", string),
     ("line", ref "LineKind"), ("to", ref "EntityId")]
    ["id", "from", "to", "label", "line"]

def node : Json :=
  object <| record
    [("fill", string), ("height", number), ("id", ref "EntityId"), ("label", string),
     ("shape", ref "NodeShape"), ("stroke", string), ("textColor", string), ("width", number),
     ("x", number), ("y", number)]
    ["id", "label", "x", "y", "width", "height", "shape", "fill", "stroke", "textColor"]

def participant : Json :=
  object <| record [("id", ref "EntityId"), ("name", string)] ["id", "name"]

def pie : Json :=
  object <| record [("slices", arrayOf (ref "PieSlice")), ("title", string)] ["title", "slices"]

def slice : Json :=
  object <| record
    [("color", string), ("id", ref "EntityId"), ("label", string),
     ("value", described "Non-negative by convention; not enforced." number)]
    ["id", "label", "value", "color"]

def sequence : Json :=
  object <| record
    [("messages", arrayOf (ref "Message")), ("participants", arrayOf (ref "Participant"))]
    ["participants", "messages"]

def definitions : Json :=
  object
    [("ArrowKind",
        described "Line/arrowhead style of a flowchart edge." (oneOf (Arrow.all.map Arrow.name))),
     ("DiagramKind", described "The type of diagram." (oneOf (Kind.all.map Kind.name))),
     ("Edge", edge), ("EntityId", entityId), ("Flowchart", flowchart), ("Gantt", gantt),
     ("GanttStatus", status), ("GanttTask", task), ("Journey", journey), ("JourneyStep", step),
     ("LineKind", oneOf [Line.solid.name, Line.dashed.name]), ("Message", message),
     ("Node", node), ("NodeShape", oneOf (Shape.all.map Shape.name)),
     ("Participant", participant), ("Pie", pie), ("PieSlice", slice), ("Sequence", sequence)]

def aboutDocument : String := lines [
  "One diagram document: a kind tag plus all five per-kind substructures.",
  "",
  "Every substructure always exists. The kind only selects which one is active for",
  "serialization and export, so switching kinds never discards work done in another kind.",
  "",
  "Deserializing goes through [`crate::normalize::normalize`], so any JSON value (including the",
  "legacy v1 shape) yields a valid diagram."]

def document : Json :=
  object <|
    [("$schema", text "https://json-schema.org/draft/2020-12/schema"), ("title", text "Diagram"),
     ("description", text aboutDocument)] ++
    record
      [("flowchart", ref "Flowchart"), ("gantt", ref "Gantt"), ("journey", ref "Journey"),
       ("nextId", ref "EntityId"), ("pie", ref "Pie"), ("sequence", ref "Sequence"),
       ("type", ref "DiagramKind"),
       ("version", typed "integer" [("format", text "uint32"), ("minimum", .ofNat 0)])]
      ["version", "type", "nextId", "flowchart", "sequence", "pie", "gantt", "journey"] ++
    [("$defs", definitions)]

def write : Text := Json.pretty 0 document

end DiagramDoc.Schema
