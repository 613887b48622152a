import WorkflowGraph.Text.Case
import WorkflowGraph.Text.Search
/-
Code that a new code node starts with, chosen by the first word of a list that its name contains.
-/
namespace WorkflowGraph

namespace Parameters

/-- code that marks all items as processed -/
def transformBody : String :=
  "return items.map(item => (\x7b json: \x7b ...item.json, processed: true \x7d \x7d));"

/-- for each word the title of the code and its body -/
def templates : List (String × String × String) := [
  ("validate", "Validation logic for ",
    "const requiredFields = ['field1', 'field2'];\nfor (const field of requiredFields) \x7b\n" ++
    "  if (!items[0].json[field]) throw new Error(`Missing required field: $\x7bfield\x7d`);\n\x7d\nreturn items;"),
  ("transform", "Transform data for ", transformBody),
  ("process", "Transform data for ", transformBody),
  ("filter", "Filter logic for ", "return items.filter(item => item.json.status === 'active');"),
  ("analyze", "Analysis logic for ",
    "return [\x7b json: \x7b total: items.length, timestamp: new Date().toISOString() \x7d \x7d];")]

/-- the code of a node with a name, its words looked for in `given` -/
def codeTemplate (given name : String) : String :=
  let lower := Text.lower given
  match templates.find? fun t => Text.contains lower t.1 with
  | some (_, title, body) => "// " ++ title ++ name ++ "\n" ++ body
  | none => "// " ++ name ++ " logic\nreturn items;"

end Parameters

end WorkflowGraph
