import WorkflowGraph.Config.Basic
import WorkflowGraph.Parameters.Defaults
/-
Post-processors: what is done to a finished document before it is handed over. The ones that a configuration can name
either leave the document alone or move code that stands beside the parameters of a node into them.
-/
namespace WorkflowGraph

/-- a last change to a finished document -/
abbrev PostProcessor := Value → Except Fault Value

namespace PostProcessor

def identity : PostProcessor := .ok

/-! ## Code -/

/-- one field of code moved into the parameters, unless they have it already -/
def relocateField (acc : Fields × Fields) (name : String) : Fields × Fields :=
  let (fields, params) := acc
  match Table.get? (.text name) fields with
  | none => (fields, params)
  | some v =>
    (Table.remove (.text name) fields,
      if Table.has (.text name) params then params else Table.put (.text name) v params)

/-- the code of a node moved into its parameters -/
def relocateNode : Value → Value
  | .object fields =>
    let params := ((Value.field "parameters" fields).object?).getD []
    let (fields, params) := Node.codeFields.foldl relocateField (fields, params)
    .object (Table.put (.text "parameters") (.object params) fields)
  | v => v

/-- the code of all nodes of a document moved into their parameters -/
def relocateCode : PostProcessor
  | .object fields =>
    match Value.field "nodes" fields with
    | .list items => .ok (.object (Table.put (.text "nodes") (.list (items.map relocateNode)) fields))
    | v => (Parameters.nodeItems v).map fun _ => .object fields
  | _ => .error .noFields

/-! ## Names -/

/-- the post-processors that have names -/
def all : List (String × PostProcessor) := [("identity", identity), ("relocate_code_fields", relocateCode)]

/-- the post-processor of a name -/
def named (name : String) : Except Fault PostProcessor :=
  match all.lookup name with
  | some p => .ok p
  | none => .error (.config (.unknownPostProcessor name (all.map (·.1))))

/-- the post-processor that is asked for, or else the one that the configuration names -/
def chosen (cfg : BuildConfig) (wanted : Option String) : Except Fault PostProcessor :=
  named ((wanted.filter fun name => !name.isEmpty).getD cfg.postProcessor)

end PostProcessor

end WorkflowGraph
