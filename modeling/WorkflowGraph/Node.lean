import WorkflowGraph.Catalog.Entry
import WorkflowGraph.Fault
/-
Nodes of a document as they are found there: objects whose fields may be missing or of any kind. A node's role is read
from its type and its name, whatever these are.
-/
namespace WorkflowGraph

/-- the type tag that a value gives; what is empty gives none -/
def Value.toTag (v : Value) : String := if v.isFilled then v.toText else ""

/-- a node of a document -/
structure Node where
  fields : Fields

namespace Node

/-- the node that a value is, if it is an object -/
def ofValue? : Value → Option Node
  | .object fields => some ⟨fields⟩
  | _ => none

def toValue (n : Node) : Value := .object n.fields

/-- a field, null when there is none -/
def get (n : Node) (name : String) : Value := Value.field name n.fields

/-- the text of a field, empty when there is none -/
def textOf (n : Node) (name : String) : String := ((Table.get? (.text name) n.fields).map Value.toText).getD ""

def name (n : Node) : Value := n.get "name"

/-- the type tag, empty when the node gives none -/
def tag (n : Node) : String := (n.get "type").toTag

def shortType (n : Node) : String := Catalog.shortType n.tag

/-- parameters that hold code; some nodes carry them beside the parameters -/
def codeFields : List String := ["functionCode", "jsCode", "pythonCode", "expression"]

/-! ## Roles -/

/-- types that end a workflow -/
def terminalTypes : List String := ["respondtowebhook", "errortrigger", "noop"]

/-- words in the name of a node that ends a workflow -/
def terminalNames : List String := ["response", "error handler"]

/-- types that usually conclude a branch by storing, sending or writing something -/
def completionTypes : List String := [
  "postgres", "mysql", "mongodb", "redis", "emailsend", "slack", "telegram", "twilio", "writebinaryfile",
  "spreadsheetfile", "googlesheets", "airtable", "notion"]

/-- words in the name of a node that concludes a branch -/
def completionWords : List String := [
  "save", "store", "update", "send", "notify", "complete", "finish", "done", "final", "end", "log", "record", "report",
  "alert"]

/-- types whose outgoing edges lead back -/
def loopTypes : List String := ["splitinbatches", "loop", "executeworkflow"]

def lowerType (n : Node) : String := Text.lower (n.textOf "type")

def lowerName (n : Node) : String := Text.lower (n.textOf "name")

/-- whether the node starts a workflow -/
def isTrigger (n : Node) : Bool := Catalog.isTriggerType n.tag

/-- whether the node ends a workflow -/
def isTerminal (n : Node) : Bool :=
  Text.containsAny n.lowerType terminalTypes || Text.containsAny n.lowerName terminalNames

/-- whether the node looks like the conclusion of a branch -/
def isBranchComplete (n : Node) : Bool :=
  Text.containsAny n.lowerType completionTypes || Text.containsAny n.lowerName completionWords

/-- whether the edges of the node lead back to earlier nodes -/
def isLoop (n : Node) : Bool := Text.containsAny n.lowerType loopTypes

/-- whether the node needs no outgoing edge -/
def isConcluding (n : Node) : Bool := n.isTerminal || n.isBranchComplete

def isSwitch (n : Node) : Bool := n.shortType == "switch"

end Node

end WorkflowGraph
