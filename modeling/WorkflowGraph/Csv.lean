import WorkflowGraph.Value.Display
/-
Rows of values as comma-separated text. The columns are all names in the rows, in the order of their first appearance. In
a column that some row lacks, whole numbers are written as doubles and what is missing is empty. A field with a comma, a
quotation mark or a line end stands in quotation marks, those in it doubled.
-/
namespace WorkflowGraph

namespace Csv

/-- a row: values by the names of their columns -/
abbrev Row := Table String Value

/-- the columns of some rows -/
def columns (rows : List Row) : List String := (rows.flatMap Table.keys).eraseDups

/-- characters that a field can only hold in quotation marks -/
def special : List Char := [',', '"', '\n', '\r']

/-- a field as it is written -/
def field (s : String) : String :=
  if s.toList.any special.contains then
    String.ofList ('"' :: (s.toList.flatMap fun c => if c == '"' then ['"', '"'] else [c]) ++ ['"'])
  else s

/-- a value in a column that every row has, or that some lack -/
def cell (complete : Bool) : Value → String
  | .int i => if complete then toString i else (Decimal.toDouble (i < 0) i.natAbs 0).toText
  | v => v.toText

/-- one line of a table -/
def line (fields : List String) : String := ",".intercalate (fields.map field) ++ "\n"

/-- the text of some rows below the names of their columns -/
def render (rows : List Row) : String :=
  let named := (columns rows).map fun c => (c, rows.all (Table.has c))
  line (named.map (·.1)) ++ String.join (rows.map fun row =>
    line (named.map fun (c, complete) => ((Table.get? c row).map (cell complete)).getD ""))

end Csv

end WorkflowGraph
