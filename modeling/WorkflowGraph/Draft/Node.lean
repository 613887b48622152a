import WorkflowGraph.Identifiers
import WorkflowGraph.NameRegistry
import WorkflowGraph.Parameters.Shape
import WorkflowGraph.Resolver.Basic
/-
Nodes of a draft, kept as they are as far as they can be part of a document. Each rule mends one field: the type, the
name, the identifier, the position, the version, the parameters and the webhook. A field that the draft gives in good
order stays, and so do all fields that no rule is about.
-/
namespace WorkflowGraph

namespace Draft

def decided (rule : String) (detail : List (String × Value)) : Event := Event.of "direct" rule detail

/-! ## Type -/

/-- the text that the type of a node without one is found by -/
def describing (raw : Fields) : String :=
  Text.strip (" ".intercalate (["name", "description", "notes"].map fun k => (Value.field k raw).toTag))

/-- the type tag that a node gives, unless it is blank -/
def givenType? (raw : Fields) : Option String :=
  match Value.field "type" raw with
  | .text s => if Text.isBlankText s then none else some s
  | _ => none

/-- the type of the node with some number -/
def nodeType (resolver : Resolver) (index : Nat) (raw : Fields) : String × Trace :=
  match givenType? raw with
  | some given =>
    let type := Parameters.canonicalType given
    (type, if type = given then []
      else [decided "type-alias" [("index", .int index), ("old", .text given), ("new", .text type)]])
  | none =>
    let (r, events) := resolver (describing raw)
    let doubt :=
      if r.isAmbiguous then
        [decided "low-confidence" (("node", .text (Value.field "name" raw).toTag) :: r.toDetail)]
      else []
    (r.nodeType, events ++ decided "type-inferred" (("index", .int index) :: r.toDetail) :: doubt)

/-! ## Name and identifier -/

/-- the name that a node is to have: its own unless that is blank, else what the catalog or the type calls it -/
def wantedName (raw : Fields) (type : String) : String :=
  let general :=
    match Catalog.lookup? type with
    | some e => e.display
    | none =>
      let short := Catalog.shortType type
      if short.isEmpty then "Node" else short
  match Value.field "name" raw with
  | .text s => if Text.isBlankText s then Text.strip general else Text.strip s
  | _ => Text.strip general

/-- the identifier that a node gives: a text that is not empty, or a whole number -/
def givenId? (raw : Fields) : Option String :=
  match Value.field "id" raw with
  | .text s => if s.isEmpty then none else some s
  | .int i => some (toString i)
  | _ => none

/-- a general identifier with a number -/
def generalId (n : Nat) : String := "node-" ++ toString n

/-- an identifier for the node with some number -/
def assignedId (used : List String) (index : Nat) : String :=
  let first := toString (index + 1)
  if used.contains first then generalId (leastFree generalId used (index + 2) used.length) else first

/-- the identifier of a node: the one it gives as long as no other node has it, else an assigned one -/
def nodeId (used : List String) (index : Nat) (raw : Fields) : String × Trace :=
  let assign := assignedId used index
  let assigned := (assign, [decided "id-assigned" [("index", .int index), ("id", .text assign)]])
  match givenId? raw with
  | some id => if used.contains id then assigned else (id, [])
  | none => assigned

/-! ## Other fields -/

/-- the position that a value gives, as a pair or as an object of coordinates -/
def position? : Value → Option Value
  | .list [x, y] => if x.isNumber && y.isNumber then some (.list [x, y]) else none
  | .object fields =>
    let x := Value.field "x" fields
    let y := Value.field "y" fields
    if x.isNumber && y.isNumber then some (.list [x, y]) else none
  | _ => none

/-- where the node with some number stands unless it says otherwise -/
def defaultPosition (index : Nat) : Value := .list [.int (256 + index * 200), .int 304]

/-- the position of a node: the one that it gives, else the default one -/
def nodePosition (name : String) (index : Nat) (raw : Fields) : Value × Trace :=
  match position? (Value.field "position" raw) with
  | some p => (p, [])
  | none =>
    (defaultPosition index,
      [decided "position-defaulted" [("node", .text name), ("position", defaultPosition index)]])

/-- one field of code copied into the parameters, unless they have it already -/
def copyCode (raw params : Fields) (key : String) : Fields :=
  match Table.get? (.text key) raw with
  | some v => if Table.has (.text key) params then params else Table.put (.text key) v params
  | none => params

/-- code given beside the parameters counts as one of them -/
def withCode (raw params : Fields) : Fields := Node.codeFields.foldl (copyCode raw) params

/-- the parameters of a node: its own with their shapes corrected, and defaults for what is missing -/
def parameters (type : String) (raw : Fields) : Fields × List String :=
  let short := Catalog.shortType type
  let f := Parameters.fixShapes short ((Value.field "parameters" raw).object?.getD [])
  (Parameters.fill short (withCode raw f.params), f.reports)

/-! ## The node -/

/-- what the nodes kept so far have used up -/
structure Used where
  names : NameRegistry
  ids : List String
  sources : Identifiers

/-- a node kept: the node, its name and its identifier -/
structure Kept where
  fields : Fields
  name : String
  id : String

/-- the webhook of a webhook node, made unless the node gives one -/
def withWebhook (type : String) (fields : Fields) (sources : Identifiers) : Fields × Identifiers :=
  if Catalog.shortType type = "webhook" ∧ !(Value.field "webhookId" fields).isFilled then
    let (id, sources) := sources.webhookId
    (Table.put (.text "webhookId") (.text id) fields, sources)
  else (fields, sources)

/-- the fields that the draft gives, with those mended that every node has -/
def placed (raw : Fields) (type name id : String) (position : Value) : Fields :=
  let fields := Table.putAll raw
    [(.text "type", .text type), (.text "name", .text name), (.text "id", .text id), (.text "position", position)]
  if (Value.field "typeVersion" raw).isNumber then fields else Table.put (.text "typeVersion") (.int 1) fields

/-- the node with some number as part of a document -/
def keepNode (resolver : Resolver) (index : Nat) (used : Used) (raw : Fields) : Kept × Used × Trace :=
  let (type, typeEvents) := nodeType resolver index raw
  let (name, names) := used.names.claim (wantedName raw type)
  let old := Value.field "name" raw
  let nameEvents :=
    if old == .text name then []
    else [decided "renamed" [("index", .int index), ("old", old), ("new", .text name)]]
  let (id, idEvents) := nodeId used.ids index raw
  let (position, positionEvents) := nodePosition name index raw
  let (params, fixes) := parameters type raw
  let fixEvents :=
    if fixes.isEmpty then []
    else [decided "parameters-fixed" [("node", .text name), ("fixes", .list (fixes.map Value.text))]]
  let given := Table.put (.text "parameters") (.object params) (placed raw type name id position)
  let (fields, sources) := withWebhook type given used.sources
  (⟨fields, name, id⟩, ⟨names, id :: used.ids, sources⟩,
    typeEvents ++ nameEvents ++ idEvents ++ positionEvents ++ fixEvents)

end Draft

end WorkflowGraph
