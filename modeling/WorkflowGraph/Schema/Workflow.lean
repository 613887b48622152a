import WorkflowGraph.Schema.Basic
/-
The shape of a workflow document. Connections are objects of objects whose values are lists of ports, each a list of
edges; ports may be empty.
-/
namespace WorkflowGraph

namespace Schema

/-- a value of one type, without further rules -/
def ofType (t : SchemaType) : Schema := .rules [.type [t]]

/-- the shape of an edge -/
def edge : Schema := .rules [
  .type [.object],
  .required ["node", "type", "index"],
  .properties [
    ("node", .rules [.type [.string], .nonEmpty]),
    ("type", ofType .string),
    ("index", .rules [.type [.integer], .nonNegative])]]

/-- the shape of a node -/
def node : Schema := .rules [
  .type [.object],
  .required ["id", "name", "type", "position", "parameters"],
  .properties [
    ("id", .rules [.type [.string, .number]]),
    ("name", .rules [.type [.string], .nonEmpty]),
    ("type", .rules [.type [.string], .typeTag]),
    ("parameters", ofType .object),
    ("typeVersion", .rules [.type [.integer, .number]]),
    ("position", .rules [.type [.array], .items (ofType .number), .minItems 2, .maxItems 2]),
    ("webhookId", ofType .string)]]

/-- the shape of the ports of one type -/
def portList : Schema := .rules [.type [.array], .items (.rules [.type [.array], .items edge])]

/-- the shape of the connections of one source -/
def portTable : Schema := .rules [.type [.object], .named portList, .onlyNamed]

/-- the shape of the nodes of a document -/
def nodeList : Schema := .rules [.type [.array], .items node]

/-- the shape of the connections of a document -/
def adjacency : Schema := .rules [.type [.object], .named portTable, .onlyNamed]

/-- the shape of a workflow document -/
def workflow : Schema := .rules [
  .type [.object],
  .required ["nodes", "connections"],
  .properties [
    ("name", ofType .string),
    ("active", ofType .boolean),
    ("settings", ofType .object),
    ("tags", ofType .array),
    ("pinData", ofType .object),
    ("nodes", nodeList),
    ("connections", adjacency)]]

/-- whether all keys of the connections of a document, and of their port types, are texts; others have no pattern -/
def keysAreTexts (document : Fields) : Bool :=
  let texts (fields : Fields) : Bool := fields.all fun (k, _) => (Value.ofKey k).isText
  match Value.field "connections" document with
  | .object sources =>
    texts sources && sources.all fun (_, v) =>
      match v with
      | .object byType => texts byType
      | _ => true
  | _ => true

end Schema

end WorkflowGraph
