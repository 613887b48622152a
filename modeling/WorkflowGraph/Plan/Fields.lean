import WorkflowGraph.Plan.Line
import WorkflowGraph.Text.Caseless
/-
What a planner's text says about the workflow as a whole: its name, how many nodes it is expected to have, and whether
errors are to be handled.
-/
namespace WorkflowGraph

namespace Plan

open Text

/-! ## Name -/

/-- the title on a line of one or two number signs, blanks and a text; blanks alone are an empty title -/
def title? (line : List Char) : Option (List Char) :=
  let body? :=
    match line with
    | '#' :: '#' :: rest => some rest
    | '#' :: rest => some rest
    | _ => none
  match body? with
  | none => none
  | some body =>
    let blanks := body.takeWhile isSpaceOrTab
    let text := body.dropWhile isSpaceOrTab
    if blanks.isEmpty || (text.isEmpty && blanks.length < 2) then none else some (trim isBlank text)

/-- the name of the workflow: its first title, else what stands after the first label for a name -/
def nameOf (cs : List Char) : String :=
  let ls := lines cs
  let named (found : Option (List Char)) : Option (List Char) := found.filter fun t => !t.isEmpty
  match named (ls.findSome? title?) with
  | some title => String.ofList title
  | none =>
    match named (labelled? "Name:".toList ls) with
    | some name => String.ofList name
    | none => "Workflow"

/-! ## Complexity -/

/-- a number after white space, and the rest -/
def spacedNumber? (cs : List Char) : Option (Nat × List Char) :=
  let body := cs.dropWhile isBlank
  match body.takeWhile isDigit with
  | [] => none
  | ds => some (digitsValue ds, body.dropWhile isDigit)

/-- the expected complexity at the start of a text -/
def complexityAt? (cs : List Char) : Option (Nat × Nat) := do
  let rest ← dropCaseless? "expected complexity:".toList cs
  let (least, rest) ← spacedNumber? rest
  let rest ← dropLiteral? ['-'] (rest.dropWhile isBlank)
  let (most, rest) ← spacedNumber? rest
  let _ ← dropCaseless? "nodes".toList (rest.dropWhile isBlank)
  return (least, most)

/-- the first expected complexity in a text -/
def complexity? : List Char → Option (Nat × Nat)
  | [] => none
  | c :: rest =>
    match complexityAt? (c :: rest) with
    | some r => some r
    | none => complexity? rest

/-! ## Concerns -/

/-- phrases that ask for the handling of errors -/
def errorPhrases : List String := [
  "error handling", "error-handling", "error trigger", "catch errors", "catching errors"]

def asksForErrorHandling (cs : List Char) : Bool := errorPhrases.any fun p => occursCaseless p.toList cs

end Plan

end WorkflowGraph
