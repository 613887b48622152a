import WorkflowGraph.Fault
import WorkflowGraph.Text.Numeral
import WorkflowGraph.Value.Parser
/-
What a plain scalar of a YAML text stands for: a truth value, nothing at all, a whole number in one of five forms, a
double in one of three, or its own text. Digits may be grouped by underscores, a leading zero makes a number octal, and
colons separate sixties.
-/
namespace WorkflowGraph

namespace Yaml

/-! ## Words -/

/-- words that stand for values -/
def words : List (List String × Value) := [
  (["yes", "Yes", "YES", "true", "True", "TRUE", "on", "On", "ON"], .bool true),
  (["no", "No", "NO", "false", "False", "FALSE", "off", "Off", "OFF"], .bool false),
  (["", "~", "null", "Null", "NULL"], .null)]

def wordValue? (s : String) : Option Value := (words.find? fun e => e.1.contains s).map (·.2)

/-- the key that merges other mappings into its own -/
def mergeKey : String := "<<"

/-- words that have a meaning as keys, but stand for no value -/
def keyWords : List String := [mergeKey, "="]

/-! ## Digits -/

/-- the number that digits write in a base of at most sixteen, underscores left out -/
def numberIn (base : Nat) (cs : List Char) : Nat :=
  (cs.filterMap Json.hexValue?).foldl (fun n d => base * n + d) 0

/-- whether a text consists of digits of a base and underscores, at least one of them -/
def isNumberIn (base : Nat) (cs : List Char) : Bool :=
  !cs.isEmpty && cs.all fun c => c == '_' || (Json.hexValue? c).any (· < base)

/-- whether a text is a decimal that does not begin with an underscore -/
def isDecimal (cs : List Char) : Bool := cs.head?.any Char.isDigit && isNumberIn 10 cs

/-- the number of the digits in a base, none when there are only underscores -/
def digitsIn (base : Nat) (cs : List Char) : Except YamlFault Nat :=
  if cs.all (· == '_') then .error .number else .ok (numberIn base cs)

/-- whether a text is a number below sixty in one or two digits -/
def isSixtieth (cs : List Char) : Bool :=
  match cs with
  | [d] => d.isDigit
  | [t, d] => '0' ≤ t && t ≤ '5' && d.isDigit
  | _ => false

/-! ## Whole numbers -/

/-- a whole number without its sign -/
def whole? (cs : List Char) : Option (Except YamlFault Nat) :=
  match cs with
  | ['0'] => some (.ok 0)
  | '0' :: 'b' :: ds => if isNumberIn 2 ds then some (digitsIn 2 ds) else none
  | '0' :: 'x' :: ds => if isNumberIn 16 ds then some (digitsIn 16 ds) else none
  | '0' :: ds => if isNumberIn 8 ds then some (.ok (numberIn 8 ds)) else none
  | _ =>
    match Text.splitOn ':' cs with
    | [] => none
    | first :: sixtieths =>
      if isDecimal first && sixtieths.all isSixtieth then
        some (.ok (sixtieths.foldl (fun n ds => 60 * n + numberIn 10 ds) (numberIn 10 first)))
      else none

def signed (negative : Bool) (n : Nat) : Int := if negative then -(n : Int) else n

/-! ## Doubles -/

/-- the double of a decimal with the digits after its point, underscores left out -/
def decimal (negative : Bool) (before after : List Char) (exponent : Int) : Double :=
  let places := (after.filter (· != '_')).length
  Decimal.toDouble negative (numberIn 10 (before ++ after)) (exponent - places)

/-- an exponent with its mark and its sign; nothing at all counts as zero -/
def exponent? : List Char → Option Int
  | [] => some 0
  | mark :: sign :: ds =>
    if (mark == 'e' || mark == 'E') && (sign == '+' || sign == '-') && !ds.isEmpty && ds.all Char.isDigit then
      some (signed (sign == '-') (numberIn 10 ds))
    else none
  | _ => none

/-- the digits after a point, and the exponent -/
def fraction? (cs : List Char) : Option (List Char × Int) :=
  let inFraction (c : Char) : Bool := c.isDigit || c == '_'
  (exponent? (cs.dropWhile inFraction)).map (cs.takeWhile inFraction, ·)

/-- parts of sixties as one double, the last part last -/
def sixties (parts : List Double) : Double :=
  (parts.reverse.foldl (fun (sum, base) x => (sum.add (x.mul (Double.ofNat base)), 60 * base))
    ((Double.zero, 1) : Double × Nat)).1

/-- a double in sixties: a decimal, numbers below sixty, and after the point digits without an exponent -/
def sexagesimal? (before after : List Char) : Option Double :=
  match Text.splitOn ':' before with
  | first :: sixtieth :: more =>
    let sixtieths := sixtieth :: more
    if isDecimal first && sixtieths.all isSixtieth && after.all (fun c => c.isDigit || c == '_') then
      let whole := (first :: sixtieths.dropLast).map fun ds => decimal false ds [] 0
      some (sixties (whole ++ [decimal false (sixtieths.getLast?.getD []) after 0]))
    else none
  | _ => none

def infinityWords : List String := [".inf", ".Inf", ".INF"]

def nanWords : List String := [".nan", ".NaN", ".NAN"]

/-- a double with its sign split off; `unsigned` when there was none -/
def double? (unsigned negative : Bool) (cs : List Char) : Option Double :=
  let word := String.ofList cs
  if infinityWords.contains word then some (.infinite negative)
  else if unsigned && nanWords.contains word then some .nan
  else
    match Text.cut? ['.'] cs with
    | none => none
    | some ([], after) =>
      if unsigned && after.head?.any Char.isDigit then
        (fraction? after).map fun (ds, e) => decimal false [] ds e
      else none
    | some (before, after) =>
      if isDecimal before then (fraction? after).map fun (ds, e) => decimal negative before ds e
      else (sexagesimal? before after).map fun x => if negative then x.neg else x

/-! ## Plain scalars -/

/-- the value of a plain scalar -/
def plainValue (s : String) : Except YamlFault Value :=
  let cs := s.toList
  let (negative, body) := Text.takeSign cs
  match wordValue? s with
  | some v => .ok v
  | none =>
    if keyWords.contains s then .error .value
    else
      match double? (body.length = cs.length) negative body, whole? body with
      | some x, _ => .ok (.float x)
      | none, some n => n.map fun n => .int (signed negative n)
      | none, none => .ok (.text s)

end Yaml

end WorkflowGraph
