import WorkflowGraph.Connections.Normal
import WorkflowGraph.Draft.Node
/-
Building a document from a draft that has nodes or connections already. The nodes are kept one by one; connections that
are keyed by identifiers, or by names as the draft spells them, are keyed by the names that the nodes have in the
document; and edges into triggers are dropped.
-/
namespace WorkflowGraph

/-- a document that was built, with the sources of identifiers and the decisions after that -/
structure Built where
  document : Fields
  sources : Identifiers
  trace : Trace

namespace Draft

/-! ## References -/

/-- the names that references of a draft stand for; the first meaning of a reference stays -/
abbrev References := Table String String

def refer (refs : References) (ref name : String) : References :=
  if Table.has ref refs then refs else refs ++ [(ref, name)]

/-- what the identifier of a draft's node refers to, if it gives one -/
def referGivenId (refs : References) (raw : Fields) (name : String) : References :=
  match Value.field "id" raw with
  | .null => refs
  | v => refer refs v.toText name

/-- what the identifiers and the name of a draft's node refer to, once the node is kept -/
def referTo (refs : References) (raw : Fields) (kept : Kept) : References :=
  let refs := refer (referGivenId refs raw kept.name) kept.id kept.name
  match Value.field "name" raw with
  | .text s => if s = kept.name then refs else refer refs s kept.name
  | _ => refs

/-! ## Nodes -/

/-- the nodes kept so far -/
structure State where
  nodes : List Node
  used : Used
  refs : References
  trace : Trace

/-- one entry of a draft's list of nodes -/
def keepEntry (resolver : Resolver) (s : State) (entry : Value × Nat) : State :=
  match entry.1 with
  | .object raw =>
    let (kept, used, events) := keepNode resolver entry.2 s.used raw
    ⟨s.nodes ++ [⟨kept.fields⟩], used, referTo s.refs raw kept, s.trace ++ events⟩
  | v =>
    { s with trace := s.trace ++
        [decided "dropped-node" [("index", .int entry.2), ("value_type", .text v.kind.word)]] }

/-- the nodes of a draft -/
def keepNodes (resolver : Resolver) (sources : Identifiers) (draft : Fields) : State :=
  let start : State := ⟨[], ⟨⟨[]⟩, [], sources⟩, [], []⟩
  match Value.field "nodes" draft with
  | .list items => items.zipIdx.foldl (keepEntry resolver) start
  | _ => { start with trace := [decided "nodes-missing" []] }

/-! ## Connections -/

/-- the names that connections mention, sorted, each once -/
def mentioned (c : Connections) : List String :=
  let sources := c.sources.filterMap fun k => (Value.ofKey k).text?
  ((sources ++ c.targets).eraseDups).mergeSort fun a b => decide (a ≤ b)

/-- the name that a reference stands for, unless it is the name of a node itself -/
def staleTo? (refs : References) (names : List String) (ref : String) : Option String :=
  if names.contains ref then none else Table.get? ref refs

/-- the connections with one reference replaced by the name that it stands for, with what was decided -/
def rekeyRef (refs : References) (names : List String) (acc : Connections × Trace) (ref : String) :
    Connections × Trace :=
  match staleTo? refs names ref with
  | some name =>
    (acc.1.rename ref name, acc.2 ++ [decided "id-rekeyed" [("old", .text ref), ("new", .text name)]])
  | none => acc

/-- the connections keyed by the names of nodes, with what was decided -/
def rekey (refs : References) (names : List String) (c : Connections) : Connections × Trace :=
  (mentioned c).foldl (rekeyRef refs names) (c, [])

/-- the connections without edges into triggers, with what was decided -/
def dropIncoming (acc : Connections × Trace) (n : Node) : Connections × Trace :=
  match n.isTrigger, n.name with
  | true, .text name =>
    let count := acc.1.countEdgesTo name
    if count = 0 then acc
    else
      (acc.1.removeEdgesTo name,
        acc.2 ++ [decided "dropped-trigger-incoming" [("node", .text name), ("edges", .int count)]])
  | _, _ => acc

/-! ## The document -/

/-- what a draft says about the document as a whole, as far as it is of the right kind -/
def withHeader (draft document : Fields) : Fields :=
  let keep (name : String) (fits : Value → Bool) (document : Fields) : Fields :=
    let v := Value.field name draft
    if fits v then Table.put (.text name) v document else document
  keep "settings" Value.isObject (keep "pinData" Value.isObject (keep "tags" Value.isList document))

/-- the draft's fields, if it is an object with nodes or connections -/
def minimalShape : Value → Except StructuralFault Fields
  | .object draft =>
    if Table.has (.text "nodes") draft || Table.has (.text "connections") draft then .ok draft
    else .error .draftWithoutNodes
  | v => .error (.draftNotObject v.kind)

/-- the document of a draft -/
def build (resolver : Resolver) (sources : Identifiers) (draft : Value) : Except Fault Built := do
  let draft ← (minimalShape draft).mapError .structural
  let name := Value.field "name" draft
  let (document, sources) ← newDocument sources (if name.isText then name else "Workflow")
  let kept := keepNodes resolver sources draft
  let raw := Value.field "connections" draft
  let c ← Connections.load raw
  let names := kept.nodes.filterMap fun n => n.name.text?
  let (c, rekeyed) := rekey kept.refs names c
  let (c, dropped) := kept.nodes.foldl dropIncoming (c, [])
  let document := Table.putAll (withHeader draft document)
    [(.text "nodes", .list (kept.nodes.map Node.toValue)), (.text "connections", c.toValue)]
  return ⟨document, kept.used.sources, kept.trace ++ Connections.normalizeEvents raw ++ rekeyed ++ dropped⟩

end Draft

end WorkflowGraph
