import WorkflowGraph.Yaml.Node
import WorkflowGraph.Yaml.Scalar
/-
Values from YAML texts. A key that is repeated keeps its first place and its last value, whatever scalar it is; lists and
objects are no keys. The key `<<` puts the fields of other mappings before those of its own.
-/
namespace WorkflowGraph

namespace Yaml

namespace Node

/-- the node of the key that merges mappings -/
def isMerge : Node → Bool
  | .scalar text true => text == mergeKey
  | _ => false

/-- the key that a node is as a value -/
def toKey (v : Value) : Except YamlFault Key :=
  match v.toKey? with
  | some k => .ok k
  | none => .error .value

/-- the fields of a value that is merged: those of a mapping, or of several, the first of which counts most -/
def merged : Value → Except YamlFault (List (Key × Value))
  | .object fields => .ok fields
  | .list items => do
    let parts ← items.reverse.mapM fun v =>
      match v with
      | .object fields => Except.ok fields
      | _ => Except.error YamlFault.value
    return parts.flatten
  | _ => .error .value

mutual

/-- the value of a node -/
def toValue : Node → Except YamlFault Value
  | .scalar text plain => if plain then plainValue text else .ok (.text text)
  | .tagged => .error .value
  | .sequence items => do return .list (← itemValues items)
  | .mapping fields => do
    let (before, own) ← fieldValues fields
    return .object (Table.ofList (before ++ own))

def itemValues : List Node → Except YamlFault (List Value)
  | [] => .ok []
  | n :: rest => do
    let v ← toValue n
    return v :: (← itemValues rest)

/-- the fields that are merged into a mapping, and its own -/
def fieldValues : List (Node × Node) → Except YamlFault (List (Key × Value) × List (Key × Value))
  | [] => .ok ([], [])
  | (key, value) :: rest => do
    let v ← toValue value
    if key.isMerge then
      let found ← merged v
      let (before, own) ← fieldValues rest
      return (found ++ before, own)
    else
      let k ← match key with
        | .scalar "=" true => pure (Key.text "=")
        | _ => toKey (← toValue key)
      let (before, own) ← fieldValues rest
      return (before, (k, v) :: own)

end

end Node

/-- the value of a text; a text without a document has none -/
def parse (s : String) : Except YamlFault Value := do
  let cs := s.toList
  if !cs.all isAllowed then throw .character
  match ← Node.ofTokens (tokens cs) with
  | some node => node.toValue
  | none => return .null

end Yaml

end WorkflowGraph
