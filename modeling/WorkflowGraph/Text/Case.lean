import WorkflowGraph.Text.CaseTables
/-
Upper and lower case of a whole text. Lower case maps character by character, with two exceptions: the dotted capital
I becomes two characters, and a capital sigma becomes the final small sigma at the end of a word. Upper case maps
character by character, some characters to several.
-/
namespace WorkflowGraph.Text

/-! ## Upper case -/

/-- the upper case of one character -/
def upperChar (c : Char) : List Char :=
  if c.toNat < 128 then [c.toUpper]
  else
    match upperSequences.find? fun e => e.1 == c.toNat with
    | some e => e.2.map Char.ofNat
    | none => [Char.ofNat (shiftBy upperRuns c.toNat)]

def upperChars (cs : List Char) : List Char := cs.flatMap upperChar

def upper (s : String) : String := String.ofList (upperChars s.toList)

/-! ## Lower case -/

def isCased (c : Char) : Bool := inRanges casedRanges c.toNat

def isSkipped (c : Char) : Bool := inRanges skippedRanges c.toNat

/-- whether the first character that is not skipped is cased -/
def startsCased (cs : List Char) : Bool := (cs.dropWhile isSkipped).head?.any isCased

/-- the lower case of one character, given what stands before it, last character first, and after it -/
def lowerChar (before : List Char) (c : Char) (after : List Char) : List Char :=
  if c.toNat < 128 then [c.toLower]
  else if c.toNat = 0x130 then ['i', Char.ofNat 0x307]
  else if c.toNat = 0x3A3 then [Char.ofNat (if startsCased before && !startsCased after then 0x3C2 else 0x3C3)]
  else [Char.ofNat (shiftBy lowerRuns c.toNat)]

/-- the lower case of a text with `before`, last character first, standing in front of it -/
def lowerFrom (before : List Char) : List Char → List Char
  | [] => []
  | c :: rest => lowerChar before c rest ++ lowerFrom (c :: before) rest

def lowerChars (cs : List Char) : List Char := lowerFrom [] cs

def lower (s : String) : String := String.ofList (lowerChars s.toList)

/-! ## Matching a letter whatever its case -/

/-- whether a character is read as a given small ASCII letter, or other ASCII character, when case does not count: the
long s, the kelvin sign, the dotted capital I and the dotless small i stand for s, k and i -/
def matchesLetter (letter c : Char) : Bool :=
  if c.toNat < 128 then c.toLower == letter
  else
    (letter == 's' && c.toNat == 0x17F) || (letter == 'k' && c.toNat == 0x212A) ||
      (letter == 'i' && (c.toNat == 0x130 || c.toNat == 0x131))

end WorkflowGraph.Text
