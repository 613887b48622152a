import WorkflowGraph.Yaml.Text
/-
The tokens of a YAML text. The starts of block collections are not written: a collection starts where its first entry or
key stands further right than the collection around it, and ends at the first line that stands further left. A mapping
is only known by the colon after its first key, so what may be such a key is remembered until that is settled, and its
tokens are put in when the colon comes.

`Tokens.of` gives all tokens that a reader gets to see before a token fails, if one does. A token that may still turn out
to be a key is not seen before that is settled.
-/
namespace WorkflowGraph

namespace Yaml

inductive Token where
  | directive
  | documentStart
  | documentEnd
  | streamEnd
  | sequenceStart
  | mappingStart
  | blockEnd
  | flowSequenceStart
  | flowSequenceEnd
  | flowMappingStart
  | flowMappingEnd
  /-- the mark of an entry of a block sequence -/
  | entry
  /-- the comma between the entries of a flow collection -/
  | comma
  | key
  | value
  | reference
  | anchor
  | tag
  | scalar (text : String) (plain : Bool)
  deriving DecidableEq

/-- a place where a key may stand: how deep in flow collections, before which token, and whether it can be nothing else -/
structure KeyPlace where
  depth : Int
  token : Nat
  required : Bool
  offset : Nat
  line : Nat
  column : Nat

/-- the state of reading tokens -/
structure Lexer where
  place : Place
  /-- how deep the place is in flow collections; a closing bracket too many makes this negative -/
  depth : Int
  /-- the column of the innermost block collection, and those of the ones around it -/
  indent : Int
  outer : List Int
  /-- whether a key may start here -/
  keyAllowed : Bool
  keys : List KeyPlace
  tokens : List Token
  done : Bool

namespace Lexer

def start (cs : List Char) : Lexer := ⟨Place.ofText cs, 0, -1, [], true, [], [], false⟩

def inFlow (l : Lexer) : Bool := l.depth != 0

/-- the characters from here on -/
def rest (l : Lexer) : List Char := l.place.rest

def column (l : Lexer) : Int := l.place.column

/-- whether what follows the character here is at the end or separates tokens -/
def separated (l : Lexer) : Bool := atEndOr isSeparator (l.rest.drop 1)

def emit (l : Lexer) (t : Token) : Lexer := { l with tokens := l.tokens ++ [t] }

/-- a token before the one at a position -/
def insert (l : Lexer) (i : Nat) (t : Token) : Lexer := { l with tokens := l.tokens.take i ++ t :: l.tokens.drop i }

/-! ## Keys -/

/-- how many characters a key may have -/
def keyLimit : Nat := 1024

/-- whether the place of a key is left behind -/
def isStale (l : Lexer) (k : KeyPlace) : Bool :=
  k.line != l.place.line || keyLimit + k.offset < l.place.offset

/-- the places of keys that are left behind dropped; one that could be nothing else is a fault -/
def dropStale (l : Lexer) : Except YamlFault Lexer :=
  if l.keys.any fun k => l.isStale k && k.required then .error .token
  else .ok { l with keys := l.keys.filter fun k => !l.isStale k }

/-- the place of a key at this depth dropped -/
def dropKey (l : Lexer) : Except YamlFault Lexer :=
  if l.keys.any fun k => k.depth == l.depth && k.required then .error .token
  else .ok { l with keys := l.keys.filter fun k => k.depth != l.depth }

/-- the next token may be a key, where one is allowed -/
def markKey (l : Lexer) : Except YamlFault Lexer :=
  if l.keyAllowed then do
    let l ← l.dropKey
    let required := !l.inFlow && l.indent == l.column
    let k : KeyPlace := ⟨l.depth, l.tokens.length, required, l.place.offset, l.place.line, l.place.column⟩
    return { l with keys := l.keys ++ [k] }
  else .ok l

/-! ## Indentation -/

/-- the block collections that stand further right than a column ended -/
def unwind (l : Lexer) (column : Int) : Lexer :=
  if l.inFlow then l
  else
    let ended := (l.indent :: l.outer).takeWhile (column < ·)
    match (l.indent :: l.outer).drop ended.length with
    | [] => l
    | indent :: outer =>
      { l with indent := indent, outer := outer, tokens := l.tokens ++ List.replicate ended.length .blockEnd }

/-- a block collection started before the token at a position, if the column is further right than the one around it -/
def indentTo (l : Lexer) (column : Int) (i : Nat) (t : Token) : Lexer :=
  if !l.inFlow && l.indent < column then { l.insert i t with indent := column, outer := l.indent :: l.outer }
  else l

/-! ## Tokens -/

/-- the place behind spaces, comments and line ends; outside flow collections a key may start on a new line -/
def skipBlank (l : Lexer) : Nat → Lexer
  | 0 => l
  | fuel + 1 =>
    let p := l.place.skipWhile (· == ' ')
    let p := if p.rest.head? == some '#' then p.skipLine else p
    match p.lineBreak? with
    | some (_, p) => skipBlank { l with place := p, keyAllowed := l.keyAllowed || !l.inFlow } fuel
    | none => { l with place := p }

/-- a token of some characters -/
def take (l : Lexer) (n : Nat) (t : Token) : Lexer := { l with place := l.place.skip n }.emit t

/-- the end of the text, or a mark of a document: all block collections end -/
def boundary (l : Lexer) (n : Nat) (t : Token) : Except YamlFault Lexer := do
  let l ← (l.unwind (-1)).dropKey
  return { l.take n t with keyAllowed := false }

def finish (l : Lexer) : Except YamlFault Lexer := do
  return { ← l.boundary 0 .streamEnd with keys := [], done := true }

/-- a directive and the rest of its line -/
def directive (l : Lexer) : Except YamlFault Lexer := do
  let l ← l.boundary 0 .directive
  return { l with place := l.place.skipLine }

def openFlow (l : Lexer) (t : Token) : Except YamlFault Lexer := do
  let l ← l.markKey
  return { l.take 1 t with depth := l.depth + 1, keyAllowed := true }

def closeFlow (l : Lexer) (t : Token) : Except YamlFault Lexer := do
  let l ← l.dropKey
  return { l.take 1 t with depth := l.depth - 1, keyAllowed := false }

def comma (l : Lexer) : Except YamlFault Lexer := do
  return { (← l.dropKey).take 1 .comma with keyAllowed := true }

/-- the mark of an entry or of a key; both may only stand where a key may start -/
def blockMark (l : Lexer) (t collection : Token) : Except YamlFault Lexer := do
  if !l.inFlow && !l.keyAllowed then throw .token
  let l ← (l.indentTo l.column l.tokens.length collection).dropKey
  return l.take 1 t

def entry (l : Lexer) : Except YamlFault Lexer := do
  return { ← l.blockMark .entry .sequenceStart with keyAllowed := true }

def key (l : Lexer) : Except YamlFault Lexer := do
  return { ← l.blockMark .key .mappingStart with keyAllowed := !l.inFlow }

/-- the colon before a value: the token that may be a key is one, and without such a token the key is empty -/
def value (l : Lexer) : Except YamlFault Lexer :=
  match l.keys.find? fun k => k.depth == l.depth with
  | some k => do
    let l := { l with keys := l.keys.filter fun k => k.depth != l.depth }
    let l := (l.insert k.token .key).indentTo k.column k.token .mappingStart
    return { l.take 1 .value with keyAllowed := false }
  | none => do
    return { ← l.blockMark .value .mappingStart with keyAllowed := !l.inFlow }

/-- characters of the name of an anchor -/
def isNameChar (c : Char) : Bool := c.isAlphanum || c == '-' || c == '_'

/-- an anchor or a reference to one, by its name -/
def named (l : Lexer) (t : Token) : Except YamlFault Lexer := do
  let l ← l.markKey
  let name := (l.rest.drop 1).takeWhile isNameChar
  if name.isEmpty then throw .token
  let l := { l.take (name.length + 1) t with keyAllowed := false }
  if !atEndOr (fun c => isSeparator c || "?:,]\x7d%@`".toList.contains c) l.rest then throw .token
  return l

def tag (l : Lexer) : Except YamlFault Lexer := do
  let l ← l.markKey
  return { l.take (l.rest.takeWhile fun c => !isSeparator c).length .tag with keyAllowed := false }

def scalar (l : Lexer) (scanned : List Char × Place) (plain : Bool) : Lexer :=
  { l with place := scanned.2 }.emit (.scalar (String.ofList scanned.1) plain)

def block (l : Lexer) (fold : Bool) : Except YamlFault Lexer := do
  let l ← { l with keyAllowed := true }.dropKey
  return l.scalar (← readBlock fold l.indent l.place.next) false

def quoted (l : Lexer) (double : Bool) : Except YamlFault Lexer := do
  let l := { ← l.markKey with keyAllowed := false }
  return l.scalar (← readQuoted double l.place.next [] (l.rest.length + 1)) false

def plain (l : Lexer) : Except YamlFault Lexer := do
  let l ← l.markKey
  let (cs, p, broken) := readPlain l.inFlow (l.indent + 1) l.place [] [] false (l.rest.length + 1)
  return { l.scalar (cs, p) true with keyAllowed := broken }

/-- characters that no plain scalar starts with -/
def marks : List Char := "-?:,[]\x7b\x7d#&*!|>'\"%@`".toList

/-- whether a plain scalar starts here -/
def startsPlain (l : Lexer) (c : Char) : Bool :=
  !(marks.contains c || isSeparator c) || (!l.separated && (c == '-' || (!l.inFlow && (c == '?' || c == ':'))))

/-- the token that starts with a character -/
def tokenAt (l : Lexer) (c : Char) : Except YamlFault Lexer :=
  if c == '%' && l.column == 0 then l.directive
  else if l.column == 0 && isMark startMark l.rest then l.boundary 3 .documentStart
  else if l.column == 0 && isMark endMark l.rest then l.boundary 3 .documentEnd
  else if c == '[' then l.openFlow .flowSequenceStart
  else if c == '\x7b' then l.openFlow .flowMappingStart
  else if c == ']' then l.closeFlow .flowSequenceEnd
  else if c == '\x7d' then l.closeFlow .flowMappingEnd
  else if c == ',' then l.comma
  else if c == '-' && l.separated then l.entry
  else if c == '?' && (l.inFlow || l.separated) then l.key
  else if c == ':' && (l.inFlow || l.separated) then l.value
  else if c == '*' then l.named .reference
  else if c == '&' then l.named .anchor
  else if c == '!' then l.tag
  else if c == '|' && !l.inFlow then l.block false
  else if c == '>' && !l.inFlow then l.block true
  else if c == '\'' then l.quoted false
  else if c == '"' then l.quoted true
  else if l.startsPlain c then l.plain
  else .error .token

/-- the next token, with the ends of the block collections before it -/
def next (l : Lexer) : Except YamlFault Lexer := do
  let l ← (l.skipBlank (l.rest.length + 1)).dropStale
  let l := l.unwind l.column
  match l.rest with
  | [] => l.finish
  | c :: _ => l.tokenAt c

/-- the tokens that can be seen so far -/
def seen (l : Lexer) : List Token :=
  match (l.keys.map (·.token)).min? with
  | some i => l.tokens.take i
  | none => l.tokens

/-- all tokens that can be seen -/
def run (l : Lexer) : Nat → List Token
  | 0 => l.seen
  | fuel + 1 =>
    match l.dropStale with
    | .error _ => l.seen
    | .ok l =>
      match l.next with
      | .error _ => l.seen
      | .ok l' => if l'.done then l'.tokens else run l' fuel

end Lexer

/-- the tokens of a text, up to the first one that cannot be read -/
def tokens (cs : List Char) : List Token :=
  let cs := match cs with
    | c :: rest => if c == byteOrderMark then rest else cs
    | [] => []
  (Lexer.start cs).run (2 * cs.length + 2)

end Yaml

end WorkflowGraph
