import WorkflowGraph.Number.Decimal
import WorkflowGraph.Text.Quoted
import WorkflowGraph.Value.Basic
/-
Writing a value as JSON text, on one line or with one item a line. Fields keep their order, only control characters,
quotation marks and backslashes are escaped, and a key that is not a text is written as the text of that scalar.
-/
namespace WorkflowGraph

namespace Json

/-- one character inside a text -/
def escape (c : Char) : List Char :=
  if c = '"' then ['\\', '"']
  else if c = '\\' then ['\\', '\\']
  else if c = '\n' then ['\\', 'n']
  else if c = '\r' then ['\\', 'r']
  else if c = '\t' then ['\\', 't']
  else if c.toNat = 8 then ['\\', 'b']
  else if c.toNat = 12 then ['\\', 'f']
  else if c.toNat < 32 then '\\' :: 'u' :: Text.hexDigits 4 c.toNat
  else [c]

def writeText (s : String) : String := String.ofList ('"' :: (s.toList.flatMap escape ++ ['"']))

def writeDouble (x : Double) : String := Decimal.render ⟨-4, 16, 2, "NaN", "Infinity"⟩ x

/-- the text that a key is written as -/
def keyText : Key → String
  | .text s => s
  | .null => "null"
  | .bool b => if b then "true" else "false"
  | .int i => toString i
  | .float x => writeDouble x

/-- the unit of indentation, or none for a text on one line -/
abbrev Indent := Option String

/-- a line end and the indentation of a level -/
def newline (unit : String) (level : Nat) : String := "\n" ++ String.join (List.replicate level unit)

/-- the items of a container between its brackets -/
def enclose (indent : Indent) (level : Nat) (opening closing : String) (items : List String) : String :=
  if items.isEmpty then opening ++ closing
  else
    match indent with
    | none => opening ++ ", ".intercalate items ++ closing
    | some unit =>
      opening ++ newline unit (level + 1) ++ ("," ++ newline unit (level + 1)).intercalate items ++ newline unit level ++
        closing

mutual

def write (indent : Indent) (level : Nat) : Value → String
  | .null => "null"
  | .bool b => if b then "true" else "false"
  | .int i => toString i
  | .float x => writeDouble x
  | .text s => writeText s
  | .list items => enclose indent level "[" "]" (writeItems indent (level + 1) items)
  | .object fields => enclose indent level "\x7b" "\x7d" (writeFields indent (level + 1) fields)

def writeItems (indent : Indent) (level : Nat) : List Value → List String
  | [] => []
  | v :: vs => write indent level v :: writeItems indent level vs

def writeFields (indent : Indent) (level : Nat) : List (Key × Value) → List String
  | [] => []
  | (k, v) :: rest => (writeText (keyText k) ++ ": " ++ write indent level v) :: writeFields indent level rest

end

/-- the text of a value -/
def render (indent : Indent) (v : Value) : String := write indent 0 v

end Json

end WorkflowGraph
