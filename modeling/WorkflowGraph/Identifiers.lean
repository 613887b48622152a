import WorkflowGraph.Text.Quoted
import WorkflowGraph.Value.Coerce
/-
Identifiers of documents and webhooks. Where they come from is a value: the choices of letters and how many of them are
used up, the hexadecimal text that tokens are cut from, the clock and the number of the next unique identifier. Using
a letter or a unique identifier moves its source on.
-/
namespace WorkflowGraph

/-- the sources of identifiers -/
structure Identifiers where
  choices : Nat → Nat
  chosen : Nat
  hex : String
  clock : Double
  unique : Nat

namespace Identifiers

/-- the letters and digits that a workflow identifier is made of -/
def alphabet : List Char := "abcdefghijklmnopqrstuvwxyzABCDEFGHIJKLMNOPQRSTUVWXYZ0123456789".toList

/-- the letter at a position, positions beyond the end starting over -/
def letter (i : Nat) : Char := (alphabet[i % alphabet.length]?).getD 'a'

/-- a token: the first characters of the hexadecimal text, repeated as often as needed -/
def token (ids : Identifiers) (n : Nat) : String :=
  let digits := ids.hex.toList
  String.ofList ((List.range n).filterMap fun i => digits[i % digits.length]?)

/-- the identifier of a workflow: sixteen letters -/
def workflowId (ids : Identifiers) : String × Identifiers :=
  (String.ofList ((List.range 16).map fun i => letter (ids.choices (ids.chosen + i))),
    { ids with chosen := ids.chosen + 16 })

/-- the version of a workflow: the clock in thousandths of a second and nine digits of a token -/
def versionId (ids : Identifiers) : Except Fault String :=
  match (ids.clock.mul (Double.ofNat 1000)).truncate? with
  | some t => .ok (toString t ++ "-" ++ ids.token 9)
  | none => .error (if ids.clock.isNan then .badValue else .tooLarge)

def instanceId (ids : Identifiers) : String := ids.token 64

/-- a number of 128 bits in five groups of hexadecimal digits -/
def uniqueText (n : Nat) : String :=
  let ds := Text.hexDigits 32 n
  let group (start count : Nat) : String := String.ofList ((ds.drop start).take count)
  "-".intercalate [group 0 8, group 8 4, group 12 4, group 16 4, group 20 12]

/-- the identifier of a webhook -/
def webhookId (ids : Identifiers) : String × Identifiers :=
  (uniqueText ids.unique, { ids with unique := ids.unique + 1 })

end Identifiers

/-- an empty workflow document with a name, and the sources after its identifiers were made; a name that is empty gives
way to a general one -/
def newDocument (ids : Identifiers) (name : Value) : Except Fault (Fields × Identifiers) := do
  let (id, ids) := ids.workflowId
  let version ← ids.versionId
  let document : List (String × Value) := [
    ("name", if name.isFilled then name else "Workflow"),
    ("id", id),
    ("versionId", version),
    ("meta", .object [(.text "instanceId", .text ids.instanceId)]),
    ("tags", .list []),
    ("pinData", .object []),
    ("active", .bool false),
    ("settings", .object []),
    ("nodes", .list []),
    ("connections", .object [])]
  return (document.map fun (key, v) => (.text key, v), ids)

end WorkflowGraph
