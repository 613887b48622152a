import WorkflowGraph.Text.Search
/-
Patterns and where they first match. A pattern looks at the character before a place and at the text from there on, and
answers how many characters it covers there. A search tries the places of a text from left to right.
-/
namespace WorkflowGraph.Text

/-- the length of a match at a place, given the character before it and the text from it on -/
abbrev Pattern := Option Char → List Char → Option Nat

/-- the place of a match: the offsets of its first character and of the character after it -/
structure Match where
  start : Nat
  stop : Nat
  deriving DecidableEq, Repr

namespace Pattern

/-- the first match in a text whose first character has the given offset and predecessor; the end of the text is
tried too -/
def search (p : Pattern) (offset : Nat) (before : Option Char) : List Char → Option Match
  | [] => (p before []).map fun n => ⟨offset, offset + n⟩
  | c :: rest =>
    match p before (c :: rest) with
    | some n => some ⟨offset, offset + n⟩
    | none => search p (offset + 1) (some c) rest

/-- the first match in a text -/
def first (p : Pattern) (cs : List Char) : Option Match := search p 0 none cs

/-- the first match from an offset on; the character before the offset is still seen -/
def firstFrom (p : Pattern) (offset : Nat) (cs : List Char) : Option Match :=
  search p offset (if offset = 0 then none else cs[offset - 1]?) (cs.drop offset)

/-- a text as it stands -/
def literal (part : List Char) : Pattern := fun _ cs => (dropLiteral? part cs).map fun _ => part.length

/-- one pattern right after another -/
def andThen (p q : Pattern) : Pattern := fun before cs => do
  let n ← p before cs
  let m ← q (if n = 0 then before else cs[n - 1]?) (cs.drop n)
  return n + m

/-- a whole run of at least `least` line ends, none standing before it -/
def lineEnds (least : Nat) : Pattern := fun before cs =>
  if before == some '\n' then none
  else
    let n := (cs.takeWhile (· == '\n')).length
    if n < least then none else some n

end Pattern

end WorkflowGraph.Text
