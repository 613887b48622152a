import WorkflowGraph.Text.Case
import WorkflowGraph.Text.Word
/-
Searching whatever the case of letters. The words looked for are written in small letters.
-/
namespace WorkflowGraph.Text

/-- what follows a word at the start of a text, case not counting -/
def dropCaseless? : List Char → List Char → Option (List Char)
  | [], cs => some cs
  | _ :: _, [] => none
  | p :: ps, c :: cs => if matchesLetter p c then dropCaseless? ps cs else none

/-- whether a word occurs in a text, case not counting -/
def occursCaseless (word : List Char) : List Char → Bool
  | [] => word.isEmpty
  | c :: rest => (dropCaseless? word (c :: rest)).isSome || occursCaseless word rest

/-- the word of a list that stands at the start of a text, given the character before it, and ends there as a word -/
def wholeWord? (words : List (List Char)) (before : Option Char) (cs : List Char) : Option (List Char) :=
  if !isBoundary before cs.head? then none
  else
    words.findSome? fun w =>
      match dropCaseless? w cs with
      | some rest => if isBoundary (cs.take w.length).getLast? rest.head? then some (cs.take w.length) else none
      | none => none

/-- the first of some words that occurs as a whole word, case not counting, as it is written in the text -/
def firstWord (words : List (List Char)) (before : Option Char) : List Char → Option (List Char)
  | [] => none
  | c :: rest =>
    match wholeWord? words before (c :: rest) with
    | some w => some w
    | none => firstWord words (some c) rest

end WorkflowGraph.Text
