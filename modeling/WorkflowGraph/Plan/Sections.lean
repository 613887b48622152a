import WorkflowGraph.Plan.Basic
import WorkflowGraph.Plan.Line
/-
The grammar of branch sections. A section starts with a heading line `### BRANCH n: title`; in it, one line names the
trigger, and the numbered lines after the label of the processing flow are the steps. A step's name is its text up to
the first bracket.
-/
namespace WorkflowGraph

namespace Plan

open Text

/-- a section of a text: the number and the title in its heading, and the text below that -/
structure BranchSection where
  number : Nat
  title : List Char
  body : List Char

/-- the number and the title in a heading line -/
def heading? (line : List Char) : Option (Nat × List Char) :=
  match dropLiteral? "### BRANCH ".toList line with
  | none => none
  | some rest =>
    match rest.takeWhile isDigit, rest.dropWhile isDigit with
    | [], _ => none
    | ds, ':' :: title => some (digitsValue ds, trim isBlank title)
    | _, _ => none

/-- the sections of some lines; `body` holds the lines since the last heading -/
def sectionsOf : List (List Char) → List BranchSection × List (List Char)
  | [] => ([], [])
  | line :: rest =>
    let (found, body) := sectionsOf rest
    match heading? line with
    | some (number, title) => (⟨number, title, body.flatMap ('\n' :: ·)⟩ :: found, [])
    | none => (found, line :: body)

/-- the sections of a text, each up to the heading of further requirements -/
def branchSections (cs : List Char) : List BranchSection :=
  (sectionsOf (lines cs)).1.map fun s => { s with body := before sectionStop s.body }

/-- the label of the processing flow -/
def flowLabel : List Char := "**Processing Flow:**".toList

/-- the text of a numbered line -/
def flowLine? (line : List Char) : Option (List Char) :=
  match takeNumber? (line.dropWhile isSpaceOrTab) with
  | some (_, c :: rest) =>
    if isSpaceOrTab c then
      let text := trimRight isBlank (rest.dropWhile isSpaceOrTab)
      if text.isEmpty then none else some text
    else none
  | _ => none

/-- the texts of the numbered lines after the label of the processing flow and before the next label -/
def flowLines (body : List Char) : List (List Char) :=
  match cut? flowLabel body with
  | some (_, flow) => (lines (before "**".toList flow)).filterMap flowLine?
  | none => []

/-- the name of a step: its text before the first bracket, or all of it when nothing stands there -/
def stepName (line : List Char) : List Char :=
  let name := trim isBlank (before ['('] line)
  if name.isEmpty then trim isBlank line else name

/-- the step that a numbered line describes -/
def flowStep (line : List Char) : Step :=
  let text := String.ofList line
  ⟨String.ofList (stepName line), text, text, none⟩

/-- the trigger that a section names, in small letters -/
def triggerOf (body : List Char) : String :=
  match labelled? "**Trigger:**".toList (lines body) with
  | some text => lower (String.ofList text)
  | none => defaultTrigger

def BranchSection.name (s : BranchSection) : String :=
  if s.title.isEmpty then "Branch " ++ toString s.number else String.ofList s.title

end Plan

end WorkflowGraph
