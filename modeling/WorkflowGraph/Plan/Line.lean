import WorkflowGraph.Text.Blank
import WorkflowGraph.Text.Digit
import WorkflowGraph.Text.Search
/-
Lines of a planner's text: what a line says under a label, and the number that a line starts with.
-/
namespace WorkflowGraph

namespace Plan

open Text

/-- what follows the first occurrence of a label on a line; a label at the very end says nothing -/
def afterLabel? (label : List Char) (line : List Char) : Option (List Char) :=
  match cut? label line with
  | some (_, c :: rest) => some (c :: rest)
  | _ => none

/-- what the first line with a label says under it, without surrounding blanks -/
def labelled? (label : List Char) (ls : List (List Char)) : Option (List Char) :=
  (ls.findSome? (afterLabel? label)).map (trim isBlank)

/-- the digits and the point that a line starts with, and the rest -/
def takeNumber? (line : List Char) : Option (List Char × List Char) :=
  match line.takeWhile isDigit, line.dropWhile isDigit with
  | [], _ => none
  | ds, '.' :: rest => some (ds, rest)
  | _, _ => none

/-- a list of steps and of the lines they take up is cut at the first heading of further requirements -/
def sectionStop : List Char := "## Additional".toList

/-- the part of a text before a marker, or all of it -/
def before (marker cs : List Char) : List Char :=
  match cut? marker cs with
  | some (head, _) => head
  | none => cs

end Plan

end WorkflowGraph
