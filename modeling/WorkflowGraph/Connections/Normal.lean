import WorkflowGraph.Connections.Basic
import WorkflowGraph.Text.Blank
import WorkflowGraph.Trace
import WorkflowGraph.Value.Coerce
/-
Normal form of connections. A document may write its connections loosely: a port without its list, a bare name for an
edge, a single edge for all ports, ports without a port type. `normalize` reads all of these; what it cannot read as an
edge it leaves out. `load` makes connections of the normal form, edge by edge, so that no port holds an edge twice.
-/
namespace WorkflowGraph

namespace Connections

/-! ## Edges -/

/-- the input that a value stands for: a whole number from zero on, zero for what is no number; infinity has no input -/
def inputIndex (v : Value) : Except Fault Nat :=
  match v.toWhole with
  | .ok i => .ok i.toNat
  | .error .infinityToWhole => .error .tooLarge
  | .error _ => .ok 0

/-- the first field that is there, null when none is -/
def firstField (names : List String) (fields : Fields) : Value :=
  (names.findSome? fun name => Table.get? (.text name) fields).getD .null

/-- the target that a value names: a bare name without its blanks, or the name in a descriptor as it stands -/
def targetName? : Value → Option String
  | .text s =>
    let name := Text.strip s
    if name.isEmpty then none else some name
  | .object fields =>
    match firstField ["node", "targetName", "name"] fields with
    | .text s => if Text.isBlankText s then none else some s
    | _ => none
  | _ => none

/-- the type of the connection that a value describes, that of the port when it gives none -/
def edgeType (portType : String) : Value → String
  | .object fields =>
    match firstField ["type", "portType"] fields with
    | .text s => if s.isEmpty then portType else s
    | _ => portType
  | _ => portType

/-- the input that a value describes, the first when it gives none -/
def edgeIndex : Value → Except Fault Nat
  | .object fields =>
    match ["index", "targetInputIndex"].findSome? fun name => Table.get? (.text name) fields with
    | some v => inputIndex v
    | none => .ok 0
  | _ => .ok 0

/-- the edge that a value describes, if a target can be read from it -/
def readEdge (portType : String) (v : Value) : Except Fault (Option Edge) :=
  match targetName? v with
  | none => .ok none
  | some name => (edgeIndex v).map fun i => some ⟨name, edgeType portType v, i⟩

/-- the edges that can be read from some values, in order -/
def readPort (portType : String) : List Value → Except Fault Port
  | [] => .ok []
  | v :: vs => do
    let e ← readEdge portType v
    let rest ← readPort portType vs
    return e.toList ++ rest

/-! ## Ports -/

/-- a list that holds no list is one port without its wrapper; nulls do not tell -/
def isFlat (items : List Value) : Bool := !items.isEmpty && items.all fun v => !v.isList

/-- one entry of a list of ports -/
def readEntry (portType : String) : Value → Except Fault Port
  | .list items => readPort portType items
  | v => readPort portType [v]

/-- the ports that a value describes -/
def readPorts (portType : String) : Value → Except Fault (List Port)
  | .list items =>
    if isFlat items then (readPort portType items).map ([·])
    else items.mapM (readEntry portType)
  | .text s => singlePort (.text s)
  | .object fields => singlePort (.object fields)
  | _ => .ok []
where
  /-- a single edge is one port, nothing readable is no port -/
  singlePort (v : Value) : Except Fault (List Port) :=
    (readEdge portType v).map fun
      | some e => [[e]]
      | none => []

/-- the ports of one source by port type, read one port type after another -/
def readPortTable : PortTable → List (Key × Value) → Except Fault PortTable
  | done, [] => .ok done
  | done, (portType, v) :: rest => do
    let ports ← readPorts portType.toText v
    readPortTable (Table.put portType.toText ports done) rest

/-- what a source maps to, a list standing for its main ports -/
def byPortType? : Value → Option Fields
  | .list items => some [(.text mainType, .list items)]
  | .object fields => some fields
  | _ => none

/-! ## Adjacency -/

/-- the sources read one after another; what describes no ports leaves no source -/
def readSources : Table Key PortTable → List (Key × Value) → Except Fault (Table Key PortTable)
  | done, [] => .ok done
  | done, (source, v) :: rest =>
    match byPortType? v with
    | none => readSources done rest
    | some byType => do
      let ports ← readPortTable [] byType
      readSources (Table.put (.text source.toText) ports done) rest

/-- the connections that a value describes, in normal form; repeated edges are kept -/
def normalize : Value → Except Fault Connections
  | .object fields => (readSources [] fields).map Connections.mk
  | _ => .ok .empty

/-- the connections built from a normal form edge by edge -/
def rebuild (normal : Connections) : Connections :=
  normal.table.foldl
    (fun c (source, byType) =>
      byType.foldl
        (fun c (portType, ports) =>
          (numbered 0 ports).foldl (fun c (i, e) => c.addEdge source portType i e)
            (c.ensurePorts source portType ports.length)) c) .empty

/-- the connections that a value describes, every edge once on its port -/
def load (v : Value) : Except Fault Connections := (normalize v).map rebuild

/-! ## Decisions -/

def decided (rule : String) (detail : List (String × Value)) : Event := Event.of "connections" rule detail

/-- what is decided on the ports that a value describes -/
def portEvents (source : String) : Value → Trace
  | .text _ => [decided "single-descriptor" [("source", source)]]
  | .object _ => [decided "single-descriptor" [("source", source)]]
  | .list items =>
    if isFlat items then
      [decided "wrapped-flat-port" [("source", source), ("targets", ((items.filterMap targetName?).length : Int))]]
    else []
  | v => [decided "dropped-port-value" [("source", source), ("value_type", v.kind.word)]]

/-- what is decided on one source -/
def sourceEvents (source : String) (v : Value) : Trace :=
  let missing := if v.isList then [decided "missing-port-type" [("source", source)]] else []
  match byPortType? v with
  | some byType => missing ++ byType.flatMap fun (_, ports) => portEvents source ports
  | none => [decided "dropped-source" [("source", source)]]

/-- what `normalize` decides on a value -/
def normalizeEvents : Value → Trace
  | .object fields => fields.flatMap fun (source, v) => sourceEvents source.toText v
  | .null => []
  | v => [decided "dropped-non-object" [("value_type", v.kind.word)]]

end Connections

end WorkflowGraph
