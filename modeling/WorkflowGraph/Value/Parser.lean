import WorkflowGraph.Number.Decimal
import WorkflowGraph.Text.Search
import WorkflowGraph.Value.Basic
/-
Reading a value from JSON text. A number without a fraction and an exponent is a whole number of any size, any other
is a double; the words NaN, Infinity and -Infinity are read as doubles too. A field that is repeated keeps its first
place and its last value. Reading fails with `none`, and no message depends on where.

Every function takes the text that is left and gives back what follows the part it read. The recursion is bounded by
`fuel`; each level of it reads at least one character in two steps, so twice the length of the text is enough.
-/
namespace WorkflowGraph

namespace Json

def isBlank (c : Char) : Bool := c == ' ' || c == '\t' || c == '\n' || c == '\r'

def skipBlanks (cs : List Char) : List Char := cs.dropWhile isBlank

/-! ## Texts -/

def hexValue? (c : Char) : Option Nat :=
  if '0' ≤ c ∧ c ≤ '9' then some (c.toNat - 48)
  else if 'a' ≤ c ∧ c ≤ 'f' then some (c.toNat - 87)
  else if 'A' ≤ c ∧ c ≤ 'F' then some (c.toNat - 55)
  else none

/-- the number that four hexadecimal digits write -/
def hex4? (a b c d : Char) : Option Nat := do
  return 4096 * (← hexValue? a) + 256 * (← hexValue? b) + 16 * (← hexValue? c) + (← hexValue? d)

def isHighSurrogate (n : Nat) : Bool := decide (0xD800 ≤ n ∧ n ≤ 0xDBFF)

def isLowSurrogate (n : Nat) : Bool := decide (0xDC00 ≤ n ∧ n ≤ 0xDFFF)

/-- the character of a code point; half of a surrogate pair alone is the replacement character -/
def charOf (n : Nat) : Char := if 0xD800 ≤ n ∧ n ≤ 0xDFFF then Char.ofNat 0xFFFD else Char.ofNat n

def joinSurrogates (high low : Nat) : Char := Char.ofNat (0x10000 + (high - 0xD800) * 0x400 + (low - 0xDC00))

/-- the character that a short escape stands for -/
def shortEscape? : Char → Option Char
  | '"' => some '"'
  | '\\' => some '\\'
  | '/' => some '/'
  | 'b' => some (Char.ofNat 8)
  | 'f' => some (Char.ofNat 12)
  | 'n' => some '\n'
  | 'r' => some '\r'
  | 't' => some '\t'
  | _ => none

/-- a text after its opening quotation mark, its characters in reverse so far -/
def readText (done : List Char) : List Char → Option (String × List Char)
  | [] => none
  | '"' :: rest => some (String.ofList done.reverse, rest)
  | '\\' :: 'u' :: a :: b :: c :: d :: '\\' :: 'u' :: e :: f :: g :: h :: rest =>
    match hex4? a b c d, hex4? e f g h with
    | some m, some n =>
      if isHighSurrogate m && isLowSurrogate n then readText (joinSurrogates m n :: done) rest
      else readText (charOf m :: done) ('\\' :: 'u' :: e :: f :: g :: h :: rest)
    | _, _ => none
  | '\\' :: 'u' :: a :: b :: c :: d :: rest =>
    match hex4? a b c d with
    | some n => readText (charOf n :: done) rest
    | none => none
  | '\\' :: c :: rest =>
    match shortEscape? c with
    | some e => readText (e :: done) rest
    | none => none
  | c :: rest => if c.toNat < 32 ∨ c = '\\' then none else readText (c :: done) rest

/-! ## Numbers -/

def span (p : Char → Bool) (cs : List Char) : List Char × List Char := (cs.takeWhile p, cs.dropWhile p)

/-- the number that ASCII digits write -/
def natOf (digits : List Char) : Nat := digits.foldl (fun n c => 10 * n + (c.toNat - 48)) 0

/-- the digits of a fraction and what follows, none unless a digit follows the point -/
def readFraction : List Char → Option (List Char) × List Char
  | '.' :: rest =>
    match span Char.isDigit rest with
    | ([], _) => (none, '.' :: rest)
    | (ds, after) => (some ds, after)
  | cs => (none, cs)

/-- an exponent and what follows, none unless a digit follows the mark and its sign -/
def readExponent : List Char → Option Int × List Char
  | [] => (none, [])
  | mark :: rest =>
    if mark = 'e' ∨ mark = 'E' then
      let (negative, body) :=
        match rest with
        | '-' :: more => (true, more)
        | '+' :: more => (false, more)
        | _ => (false, rest)
      match span Char.isDigit body with
      | ([], _) => (none, mark :: rest)
      | (ds, after) => (some (if negative then -(natOf ds : Int) else natOf ds), after)
    else (none, mark :: rest)

/-- a number without its sign -/
def readMagnitude (negative : Bool) (cs : List Char) : Option (Value × List Char) :=
  let (whole, rest) :=
    match cs with
    | '0' :: more => (['0'], more)
    | _ => span Char.isDigit cs
  if whole.isEmpty then none
  else
    let (fraction, rest) := readFraction rest
    let (exponent, rest) := readExponent rest
    if fraction.isNone ∧ exponent.isNone then
      some (.int (if negative then -(natOf whole : Int) else natOf whole), rest)
    else
      let ds := fraction.getD []
      some (.float (Decimal.toDouble negative (natOf (whole ++ ds)) (exponent.getD 0 - ds.length)), rest)

/-- the words that stand for values -/
def words : List (List Char × Value) := [
  ("null".toList, .null),
  ("true".toList, .bool true),
  ("false".toList, .bool false),
  ("NaN".toList, .float .nan),
  ("Infinity".toList, .float (.infinite false)),
  ("-Infinity".toList, .float (.infinite true))]

def readWord (cs : List Char) : Option (Value × List Char) :=
  words.findSome? fun (word, v) => (Text.dropLiteral? word cs).map (v, ·)

def readScalar (cs : List Char) : Option (Value × List Char) :=
  match readWord cs with
  | some r => some r
  | none =>
    match cs with
    | '-' :: rest => readMagnitude true rest
    | _ => readMagnitude false cs

/-! ## Containers -/

mutual

def readValue : Nat → List Char → Option (Value × List Char)
  | 0, _ => none
  | fuel + 1, cs =>
    match cs with
    | '"' :: rest => (readText [] rest).map fun (s, after) => (.text s, after)
    | '[' :: rest =>
      match skipBlanks rest with
      | ']' :: after => some (.list [], after)
      | body => (readItems fuel body).map fun (items, after) => (.list items, after)
    | '\x7b' :: rest =>
      match skipBlanks rest with
      | '\x7d' :: after => some (.object [], after)
      | body => (readFields fuel body).map fun (fields, after) => (.object (Table.ofList fields), after)
    | _ => readScalar cs

/-- the items of a list from its first one on -/
def readItems : Nat → List Char → Option (List Value × List Char)
  | 0, _ => none
  | fuel + 1, cs =>
    match readValue fuel cs with
    | none => none
    | some (v, rest) =>
      match skipBlanks rest with
      | ']' :: after => some ([v], after)
      | ',' :: more => (readItems fuel (skipBlanks more)).map fun (vs, after) => (v :: vs, after)
      | _ => none

/-- the fields of an object from its first one on -/
def readFields : Nat → List Char → Option (List (Key × Value) × List Char)
  | 0, _ => none
  | fuel + 1, cs =>
    match cs with
    | '"' :: rest =>
      match readText [] rest with
      | none => none
      | some (name, rest) =>
        match skipBlanks rest with
        | ':' :: more =>
          match readValue fuel (skipBlanks more) with
          | none => none
          | some (v, rest) =>
            match skipBlanks rest with
            | '\x7d' :: after => some ([(.text name, v)], after)
            | ',' :: more =>
              (readFields fuel (skipBlanks more)).map fun (fields, after) => ((.text name, v) :: fields, after)
            | _ => none
        | _ => none
    | _ => none

end

/-- the value that a whole text writes -/
def parse? (s : String) : Option Value :=
  let cs := s.toList
  match readValue (2 * cs.length + 2) (skipBlanks cs) with
  | some (v, rest) => if (skipBlanks rest).isEmpty then some v else none
  | none => none

end Json

end WorkflowGraph
