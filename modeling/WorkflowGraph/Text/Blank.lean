import WorkflowGraph.Text.Ranges
/-
White space, the class that trimming removes: the ASCII blanks and separators, the next-line and no-break spaces and
the spaces of the general punctuation block. The zero-width space and the byte-order mark are not blank.
-/
namespace WorkflowGraph.Text

/-- code points of white space, as closed ranges -/
def blankRanges : List (Nat × Nat) := [
  (0x9, 0xD), (0x1C, 0x20), (0x85, 0x85), (0xA0, 0xA0), (0x1680, 0x1680), (0x2000, 0x200A), (0x2028, 0x2029),
  (0x202F, 0x202F), (0x205F, 0x205F), (0x3000, 0x3000)]

def isBlank (c : Char) : Bool := inRanges blankRanges c.toNat

/-- a space or a tab, the blanks inside one line of a plan -/
def isSpaceOrTab (c : Char) : Bool := c == ' ' || c == '\t'

/-- without the leading characters of a class -/
def trimLeft (p : Char → Bool) (cs : List Char) : List Char := cs.dropWhile p

/-- without the trailing characters of a class -/
def trimRight (p : Char → Bool) (cs : List Char) : List Char := (cs.reverse.dropWhile p).reverse

/-- without the leading and trailing characters of a class -/
def trim (p : Char → Bool) (cs : List Char) : List Char := trimRight p (trimLeft p cs)

/-- without surrounding white space -/
def strip (s : String) : String := String.ofList (trim isBlank s.toList)

/-- a text of white space only, the empty one included -/
def isBlankText (s : String) : Bool := s.toList.all isBlank

end WorkflowGraph.Text
