import WorkflowGraph.Plan.Basic
import WorkflowGraph.Plan.Line
/-
The grammar of numbered steps. A step is a line with a number, a point and a name between double asterisks; the lines
below it, up to the next number and four at most, may give its node type and its description.
-/
namespace WorkflowGraph

namespace Plan

open Text

/-- how many lines below a step are read -/
def detailLines : Nat := 4

/-- the name of the step on a line -/
def boldStep? (line : List Char) : Option (List Char) :=
  match takeNumber? line with
  | some (_, c :: rest) =>
    if isBlank c then
      match dropLiteral? "**".toList (rest.dropWhile isBlank) with
      | some body =>
        let name := body.takeWhile fun c => c != '*'
        match dropLiteral? "**".toList (body.dropWhile fun c => c != '*') with
        | some _ => if name.isEmpty then none else some (trim isBlank name)
        | none => none
      | none => none
    else none
  | _ => none

/-- the lines below a step that may describe it -/
def details (below : List (List Char)) : List (List Char) :=
  ((below.take detailLines).map (trim isBlank)).takeWhile fun line => (takeNumber? line).isNone

/-- what the last line with a label says under it -/
def lastLabelled? (label : List Char) (ls : List (List Char)) : Option (List Char) :=
  (ls.filterMap (afterLabel? label)).getLast?.map (trim isBlank)

/-- the step with a name and the lines below it -/
def boldStep (name : List Char) (below : List (List Char)) : Step :=
  let ls := details below
  let type := (lastLabelled? "**Node Type:**".toList ls).map (trim (· == '`'))
  let description := String.ofList ((lastLabelled? "**Node:**".toList ls).getD [])
  let name := String.ofList name
  ⟨name, if description.isEmpty then name else description, strip (name ++ " " ++ description),
    (type.map String.ofList).filter fun t => !t.isEmpty⟩

/-- the steps on some lines -/
def boldSteps : List (List Char) → List Step
  | [] => []
  | line :: rest =>
    match boldStep? (trim isBlank line) with
    | some name => boldStep name rest :: boldSteps rest
    | none => boldSteps rest

end Plan

end WorkflowGraph
