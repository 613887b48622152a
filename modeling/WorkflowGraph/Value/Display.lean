import WorkflowGraph.Number.Decimal
import WorkflowGraph.Text.Quoted
import WorkflowGraph.Value.Basic
/-
The text of a value in messages and names. A text stands for itself; every other value, and a text inside a list or
an object, is shown in its literal form.
-/
namespace WorkflowGraph

namespace Kind

/-- the word for a kind of value in messages -/
def word : Kind → String
  | .null => "NoneType"
  | .bool => "bool"
  | .int => "int"
  | .float => "float"
  | .text => "str"
  | .list => "list"
  | .object => "dict"

end Kind

namespace Key

/-- the literal form of a key -/
def literal : Key → String
  | .text s => Text.quoted s
  | .null => "None"
  | .bool b => if b then "True" else "False"
  | .int i => toString i
  | .float x => x.toText

/-- the text of a key -/
def toText : Key → String
  | .text s => s
  | k => k.literal

end Key

namespace Value

mutual

/-- the literal form of a value -/
def literal : Value → String
  | .null => Key.literal .null
  | .bool b => Key.literal (.bool b)
  | .int i => Key.literal (.int i)
  | .float x => Key.literal (.float x)
  | .text s => Key.literal (.text s)
  | .list items => "[" ++ ", ".intercalate (itemLiterals items) ++ "]"
  | .object fields => "\x7b" ++ ", ".intercalate (fieldLiterals fields) ++ "\x7d"

def itemLiterals : List Value → List String
  | [] => []
  | v :: vs => literal v :: itemLiterals vs

def fieldLiterals : List (Key × Value) → List String
  | [] => []
  | (k, v) :: rest => (k.literal ++ ": " ++ literal v) :: fieldLiterals rest

end

/-- the text of a value -/
def toText : Value → String
  | .text s => s
  | v => v.literal

end Value

end WorkflowGraph
