import WorkflowGraph.Prompt
import WorkflowGraph.Value.Parser
/-
What a build starts from. An object is a draft of the document, and so is a text that holds one as JSON, fenced or not;
any other text describes the workflow in words, and any other value does so by its text.
-/
namespace WorkflowGraph

/-- what a build starts from: a draft of the document, or a text that describes it -/
inductive Input where
  | draft (fields : Fields)
  | prompt (text : String)

namespace Input

open Text

/-- the marker that opens and closes a fenced block -/
def fence : List Char := "```".toList

/-- a text without the fence at its end -/
def dropClosingFence (cs : List Char) : List Char :=
  let body := trimRight isBlank cs
  if fence.isSuffixOf body then body.take (body.length - fence.length) else cs

/-- what a fenced block holds below the line that opens it; any other text as it is, without surrounding blanks -/
def unfenced (cs : List Char) : List Char :=
  let body := trim isBlank cs
  if fence.isPrefixOf body then
    match cut? ['\n'] body with
    | some (_, inner) => trim isBlank (dropClosingFence inner)
    | none => []
  else body

/-- the object that a text holds as JSON -/
def objectIn? (text : String) : Option Fields :=
  let body := unfenced text.toList
  if ['\x7b'].isPrefixOf body then (Json.parse? (String.ofList body)).bind Value.object? else none

/-- the input that a value is -/
def ofValue : Value → Input
  | .object fields => .draft fields
  | v =>
    let text := Prompt.textOf v
    match objectIn? text with
    | some fields => .draft fields
    | none => .prompt text

/-- the input as a value -/
def toValue : Input → Value
  | .draft fields => .object fields
  | .prompt text => .text text

end Input

end WorkflowGraph
