import WorkflowGraph.Number.Decimal
import WorkflowGraph.Text.Blank
import WorkflowGraph.Text.Digit
import WorkflowGraph.Text.Search
/-
Numbers written as text. Surrounding white space is skipped, digits may be of any script, and a single underscore may
stand between two digits.
-/
namespace WorkflowGraph.Text

/-- white space that may surround a number; the ASCII information separators are not among it -/
def isNumeralBlank (c : Char) : Bool := isBlank c && !(decide (0x1C ≤ c.toNat ∧ c.toNat ≤ 0x1F))

/-- the digits at the start of a text, underscores left out, and the rest; the digit run may not start or end with an
underscore, nor hold two in a row -/
def digitRun : List Char → List Char × List Char
  | [] => ([], [])
  | '_' :: rest => ([], '_' :: rest)
  | c :: '_' :: d :: rest =>
    if isDigit c then
      if isDigit d then
        let (ds, after) := digitRun (d :: rest)
        (c :: ds, after)
      else ([c], '_' :: d :: rest)
    else ([], c :: '_' :: d :: rest)
  | c :: rest =>
    if isDigit c then
      let (ds, after) := digitRun rest
      (c :: ds, after)
    else ([], c :: rest)

/-- the sign at the start of a text and the rest -/
def takeSign : List Char → Bool × List Char
  | '-' :: rest => (true, rest)
  | '+' :: rest => (false, rest)
  | cs => (false, cs)

/-- the whole number that a text writes -/
def toInt? (s : String) : Option Int :=
  let (negative, body) := takeSign (trim isNumeralBlank s.toList)
  match digitRun body with
  | ([], _) => none
  | (ds, []) => some (if negative then -(digitsValue ds : Int) else digitsValue ds)
  | _ => none

/-- the exponent at the end of a decimal; nothing at all counts as zero -/
def exponent? : List Char → Option Int
  | [] => some 0
  | e :: rest =>
    if e = 'e' ∨ e = 'E' then
      let (negative, body) := takeSign rest
      match digitRun body with
      | ([], _) => none
      | (ds, []) => some (if negative then -(digitsValue ds : Int) else digitsValue ds)
      | _ => none
    else none

/-- the double that a text writes, as a decimal or as one of the words for infinity and not-a-number -/
def toDouble? (s : String) : Option Double :=
  let (negative, body) := takeSign (trim isNumeralBlank s.toList)
  let word := String.ofList (body.map Char.toLower)
  if word = "inf" ∨ word = "infinity" then some (.infinite negative)
  else if word = "nan" then some .nan
  else
    let (whole, rest) := digitRun body
    let (fraction, rest) :=
      match rest with
      | '.' :: more => digitRun more
      | _ => ([], rest)
    if whole.isEmpty ∧ fraction.isEmpty then none
    else
      (exponent? rest).map fun e =>
        Decimal.toDouble negative (digitsValue (whole ++ fraction)) (e - fraction.length)

end WorkflowGraph.Text
