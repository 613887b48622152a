import WorkflowGraph.Fault
import WorkflowGraph.Text.Blank
import WorkflowGraph.Text.Search
import WorkflowGraph.Value.Parser
/-
The texts of YAML scalars: plain ones, which may go on over several lines, quoted ones with their escapes, and blocks
with an indentation of their own. Each reader starts at a place in the text and gives the scalar and the place after it.
A line break inside a scalar is a space, unless further lines are empty, each of which is then a line break.
-/
namespace WorkflowGraph

namespace Yaml

/-! ## Characters -/

def nextLine : Char := Char.ofNat 0x85

def byteOrderMark : Char := Char.ofNat 0xFEFF

/-- characters that end a line -/
def breaks : List Char := ['\r', '\n', nextLine, Char.ofNat 0x2028, Char.ofNat 0x2029]

def isBreak (c : Char) : Bool := breaks.contains c

def isSpaceOrBreak (c : Char) : Bool := c == ' ' || isBreak c

def isSeparator (c : Char) : Bool := c == '\t' || isSpaceOrBreak c

/-- whether a text is at its end, or at a character of a class -/
def atEndOr (p : Char → Bool) (cs : List Char) : Bool := cs.head?.all p

/-- characters that a YAML text may hold -/
def isAllowed (c : Char) : Bool :=
  let n := c.toNat
  n == 9 || n == 10 || n == 13 || (0x20 ≤ n && n ≤ 0x7E) || n == 0x85 || (0xA0 ≤ n && n ≤ 0xFFFD) || 0x10000 ≤ n

/-- the marks that begin and end a document -/
def startMark : List Char := ['-', '-', '-']

def endMark : List Char := ['.', '.', '.']

/-- whether a mark of a document stands alone at the start of a text -/
def isMark (mark cs : List Char) : Bool :=
  match Text.dropLiteral? mark cs with
  | some rest => atEndOr isSeparator rest
  | none => false

def isDocumentMark (cs : List Char) : Bool := isMark startMark cs || isMark endMark cs

/-! ## Places -/

/-- a place in a text: what follows it, and how many characters and lines are before it -/
structure Place where
  rest : List Char
  offset : Nat
  line : Nat
  column : Nat

namespace Place

def ofText (cs : List Char) : Place := ⟨cs, 0, 0, 0⟩

/-- the place after one character; a byte-order mark takes up no column -/
def next (p : Place) : Place :=
  match p.rest with
  | [] => p
  | '\r' :: '\n' :: rest => ⟨'\n' :: rest, p.offset + 1, p.line, p.column + 1⟩
  | c :: rest =>
    if isBreak c then ⟨rest, p.offset + 1, p.line + 1, 0⟩
    else ⟨rest, p.offset + 1, p.line, if c == byteOrderMark then p.column else p.column + 1⟩

def skip (p : Place) : Nat → Place
  | 0 => p
  | n + 1 => p.next.skip n

/-- the place after the characters of a class -/
def skipWhile (p : Place) (q : Char → Bool) : Place := p.skip (p.rest.takeWhile q).length

/-- the line break at a place, and the place after it -/
def lineBreak? (p : Place) : Option (Char × Place) :=
  match p.rest with
  | '\r' :: '\n' :: _ => some ('\n', p.skip 2)
  | c :: _ =>
    if isBreak c then some (if c == '\r' || c == nextLine then '\n' else c, p.next) else none
  | [] => none

/-- the place after the rest of a line -/
def skipLine (p : Place) : Place := p.skipWhile fun c => !isBreak c

end Place

/-- a scalar, and the place after it -/
abbrev Scanned := Except YamlFault (List Char × Place)

/-- what a line break and the empty lines after it stand for -/
def folded (first : Char) (more : List Char) : List Char :=
  (if first != '\n' then [first] else if more.isEmpty then [' '] else []) ++ more

/-! ## Plain scalars -/

/-- whether a colon before a text ends a plain scalar -/
def endsKey (inFlow : Bool) (cs : List Char) : Bool :=
  atEndOr (fun c => isSeparator c || (inFlow && ",[]\x7b\x7d".toList.contains c)) cs

/-- the characters of a plain scalar up to the next blank -/
def plainRun (inFlow : Bool) : List Char → List Char
  | [] => []
  | c :: rest =>
    if isSeparator c || (c == ':' && endsKey inFlow rest) || (inFlow && ",?[]\x7b\x7d".toList.contains c) then []
    else c :: plainRun inFlow rest

/-- the empty lines at a place, blanks on them skipped; none when a mark of a document follows -/
def emptyLines (p : Place) (found : List Char) : Nat → Option (List Char) × Place
  | 0 => (some found, p)
  | fuel + 1 =>
    match p.rest with
    | ' ' :: _ => emptyLines p.next found fuel
    | _ =>
      match p.lineBreak? with
      | none => (some found, p)
      | some (c, p) => if isDocumentMark p.rest then (none, p) else emptyLines p (found ++ [c]) fuel

/-- what stands for the blanks between two runs of a plain scalar, empty if the scalar ends there, and whether a line
ended -/
def plainGap (p : Place) : List Char × Place × Bool :=
  let blanks := p.rest.takeWhile (· == ' ')
  let p := p.skip blanks.length
  match p.lineBreak? with
  | none => (blanks, p, false)
  | some (c, p) =>
    if isDocumentMark p.rest then ([], p, true)
    else
      match emptyLines p [] p.rest.length with
      | (some more, p) => (folded c more, p, true)
      | (none, p) => ([], p, true)

/-- a plain scalar, the place after it, and whether a line ended behind its last run; on further lines it has to stand
at a column at least -/
def readPlain (inFlow : Bool) (column : Int) (p : Place) (done gap : List Char) (broken : Bool) :
    Nat → List Char × Place × Bool
  | 0 => (done, p, broken)
  | fuel + 1 =>
    let run := plainRun inFlow p.rest
    if run.isEmpty || p.rest.head? == some '#' then (done, p, broken)
    else
      let done := done ++ gap ++ run
      let (gap, p, broken) := plainGap (p.skip run.length)
      if gap.isEmpty || p.rest.head? == some '#' || (!inFlow && p.column < column) then (done, p, broken)
      else readPlain inFlow column p done gap broken fuel

/-! ## Quoted scalars -/

/-- characters that an escape of one letter stands for -/
def shortEscapes : List (Char × Nat) := [
  ('0', 0), ('a', 7), ('b', 8), ('t', 9), ('\t', 9), ('n', 10), ('v', 11), ('f', 12), ('r', 13), ('e', 27), (' ', 32),
  ('"', 34), ('\\', 92), ('/', 47), ('N', 0x85), ('_', 0xA0), ('L', 0x2028), ('P', 0x2029)]

/-- how many hexadecimal digits an escape has -/
def longEscapes : List (Char × Nat) := [('x', 2), ('u', 4), ('U', 8)]

/-- the line breaks at a place and the blanks around them -/
def quotedBreaks (p : Place) (found : List Char) : Nat → Scanned
  | 0 => .ok (found, p)
  | fuel + 1 =>
    if isDocumentMark p.rest then .error .token
    else
      let p := p.skipWhile Text.isSpaceOrTab
      match p.lineBreak? with
      | some (c, p) => quotedBreaks p (found ++ [c]) fuel
      | none => .ok (found, p)

/-- an escape after its backslash -/
def readEscape (p : Place) : Scanned :=
  match p.rest with
  | [] => .error .token
  | c :: rest =>
    match shortEscapes.lookup c, longEscapes.lookup c with
    | some n, _ => .ok ([Char.ofNat n], p.next)
    | none, some width =>
      let ds := (rest.take width).filterMap Json.hexValue?
      if ds.length < width then .error .token
      else
        let n := ds.foldl (fun n d => 16 * n + d) 0
        if n < 0x110000 then .ok ([Json.charOf n], p.skip (width + 1)) else .error .number
    | none, none =>
      match p.lineBreak? with
      | some (_, p) => quotedBreaks p [] p.rest.length
      | none => .error .token

/-- the blanks and line breaks at a place inside a quoted scalar -/
def readQuotedGap (p : Place) : Scanned :=
  let blanks := p.rest.takeWhile Text.isSpaceOrTab
  let p := p.skip blanks.length
  if p.rest.isEmpty then .error .token
  else
    match p.lineBreak? with
    | none => .ok (blanks, p)
    | some (c, p) => do
      let (more, p) ← quotedBreaks p [] p.rest.length
      return (folded c more, p)

/-- a quoted scalar after its opening mark -/
def readQuoted (double : Bool) (p : Place) (done : List Char) : Nat → Scanned
  | 0 => .error .token
  | fuel + 1 =>
    match p.rest with
    | [] => .error .token
    | '\'' :: '\'' :: _ =>
      if double then readQuoted double (p.skip 2) (done ++ ['\'', '\'']) fuel
      else readQuoted double (p.skip 2) (done ++ ['\'']) fuel
    | c :: _ =>
      if c == (if double then '"' else '\'') then .ok (done, p.next)
      else if isSeparator c then do
        let (gap, p) ← readQuotedGap p
        readQuoted double p (done ++ gap) fuel
      else if double && c == '\\' then do
        let (cs, p) ← readEscape p.next
        readQuoted double p (done ++ cs) fuel
      else readQuoted double p.next (done ++ [c]) fuel

/-! ## Blocks -/

/-- what the indicators of a block say: whether the line breaks at its end are kept, cut down to one or dropped, and
its indentation -/
structure BlockHeader where
  keepsEnd : Option Bool
  indentation : Option Nat

/-- the indicator of the end of a block -/
def takeChomping (p : Place) : Option Bool × Place :=
  match p.rest with
  | '+' :: _ => (some true, p.next)
  | '-' :: _ => (some false, p.next)
  | _ => (none, p)

/-- the indicator of the indentation of a block; zero is none -/
def takeIndentation (p : Place) : Except YamlFault (Option Nat × Place) :=
  match p.rest with
  | c :: _ =>
    if c == '0' then .error .token
    else if c.isDigit then .ok (Json.hexValue? c, p.next)
    else .ok (none, p)
  | [] => .ok (none, p)

/-- the indicators of a block, in either order, and the rest of their line -/
def readBlockHeader (p : Place) : Except YamlFault (BlockHeader × Place) := do
  let (before, p) := takeChomping p
  let (indentation, p) ← takeIndentation p
  let (keepsEnd, p) := if before.isNone && indentation.isSome then takeChomping p else (before, p)
  if !atEndOr isSpaceOrBreak p.rest then throw .token
  let p := p.skipWhile (· == ' ')
  let p := if p.rest.head? == some '#' then p.skipLine else p
  if !atEndOr isBreak p.rest then throw .token
  return (⟨keepsEnd, indentation⟩, (p.lineBreak?.map (·.2)).getD p)

/-- the empty lines at the start of a block, and the greatest column of blanks on them -/
def blockStart (p : Place) (found : List Char) (column : Nat) : Nat → List Char × Nat × Place
  | 0 => (found, column, p)
  | fuel + 1 =>
    match p.lineBreak?, p.rest with
    | some (c, p), _ => blockStart p (found ++ [c]) column fuel
    | none, ' ' :: _ => blockStart p.next found (max column p.next.column) fuel
    | none, _ => (found, column, p)

/-- the place behind blanks, up to a column -/
def skipIndentation (column : Nat) (p : Place) : Place :=
  p.skip (min (column - p.column) (p.rest.takeWhile (· == ' ')).length)

/-- the line breaks at a place and the indentation after them -/
def blockBreaks (column : Nat) (p : Place) (found : List Char) : Nat → List Char × Place
  | 0 => (found, skipIndentation column p)
  | fuel + 1 =>
    let p := skipIndentation column p
    match p.lineBreak? with
    | some (c, p) => blockBreaks column p (found ++ [c]) fuel
    | none => (found, p)

/-- whether the line at a place belongs to a block -/
def inBlock (column : Nat) (p : Place) : Bool := p.column == column && !p.rest.isEmpty

/-- the lines of a block; `before` are the line breaks before the line at the place. At the end: the text, the line break
after its last line, and the empty lines behind it -/
def readBlockLines (fold : Bool) (column : Nat) (p : Place) (before done ending : List Char) :
    Nat → List Char × List Char × List Char × Place
  | 0 => (done, ending, before, p)
  | fuel + 1 =>
    if !inBlock column p then (done, ending, before, p)
    else
      let line := p.rest.takeWhile fun c => !isBreak c
      let indented := line.head?.any Text.isSpaceOrTab
      let p := p.skip line.length
      let (ending, p) := match p.lineBreak? with
        | some (c, p) => ([c], p)
        | none => ([], p)
      let done := done ++ before ++ line
      let (more, p) := blockBreaks column p [] p.rest.length
      if inBlock column p then
        let joined :=
          if fold && ending == ['\n'] && !indented && !p.rest.head?.any Text.isSpaceOrTab then
            if more.isEmpty then [' '] else []
          else ending
        readBlockLines fold column p more (done ++ joined) [] fuel
      else (done, ending, more, p)

/-- a block after its mark, in a collection with some indentation -/
def readBlock (fold : Bool) (indent : Int) (p : Place) : Scanned := do
  let (header, p) ← readBlockHeader p
  let least := (max 1 (indent + 1)).toNat
  let (first, column, p) :=
    match header.indentation with
    | some n =>
      let column := least + n - 1
      let (found, p) := blockBreaks column p [] p.rest.length
      (found, column, p)
    | none =>
      let (found, column, p) := blockStart p [] 0 p.rest.length
      (found, max least column, p)
  let (done, ending, more, p) := readBlockLines fold column p first [] [] p.rest.length
  let kept := match header.keepsEnd with
    | some false => []
    | some true => ending ++ more
    | none => ending
  return (done ++ kept, p)

end Yaml

end WorkflowGraph
