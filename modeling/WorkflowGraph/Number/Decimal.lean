import WorkflowGraph.Number.Double
/-
Decimal forms of doubles: reading a decimal, the fewest digits that read back, and rounding to a fixed number of
places. All three work on the exact value of the double, so no digit depends on intermediate rounding.
-/
namespace WorkflowGraph

namespace Decimal

/-- how many decimal digits a natural number has; zero has one -/
def digitCount (n : Nat) : Nat := (toString n).length

/-- the exponent `e` with `10 ^ e ≤ a / b < 10 ^ (e + 1)`, for positive `a` and `b` -/
def magnitude (a b : Nat) : Int :=
  if b ≤ a then (digitCount (a / b) : Int) - 1
  else -(digitCount ((b + a - 1) / a - 1) : Int)

/-- `a / b` rounded to a whole number, a half going to the even one -/
def roundHalfEven (a b : Nat) : Nat :=
  let q := a / b
  let r := a % b
  if b < 2 * r ∨ (2 * r = b ∧ q % 2 = 1) then q + 1 else q

/-- `a / b` in steps of `10 ^ e`, as a quotient of natural numbers -/
def scaled (a b : Nat) (e : Int) : Nat × Nat :=
  if 0 ≤ e then (a, b * Nat.pow 10 e.toNat) else (a * Nat.pow 10 (-e).toNat, b)

/-- the double nearest to `±digits · 10 ^ e`; exponents far outside the range are settled without computing the power -/
def toDouble (negative : Bool) (digits : Nat) (e : Int) : Double :=
  if digits = 0 then Double.ofMagnitude negative 0
  else
    let top := e + digitCount digits
    if 400 < top then .infinite negative
    else if top < -400 then Double.ofMagnitude negative 0
    else if 0 ≤ e then Double.ofRatio negative (digits * Nat.pow 10 e.toNat) 1
    else Double.ofRatio negative digits (Nat.pow 10 (-e).toNat)

/-- a decimal number: digits and the power of ten of the last digit -/
structure Form where
  digits : Nat
  exponent : Int
  deriving DecidableEq, Repr

/-- the decimals with last digit at `10 ^ e` next to `n` units that read back as these units, the nearest first -/
def candidates (n : Nat) (e : Int) : List Form :=
  let (a, b) := scaled n Double.one e
  let low := a / b
  let twice := 2 * (a % b)
  let nearest := roundHalfEven a b
  let other := if nearest = low then low + 1 else low
  let order := if twice = 0 then [low] else [nearest, other]
  (order.filter fun d => decide ((toDouble false d e).units? = some (n : Int))).map (⟨·, e⟩)

/-- the first grid, from `count` digits on, with a decimal that reads back -/
def search (n : Nat) (top : Int) (count : Nat) : Nat → Form
  | 0 => ⟨0, 0⟩
  | fuel + 1 =>
    match candidates n (top - count + 1) with
    | f :: _ => f
    | [] => search n top (count + 1) fuel

/-- the decimal of fewest digits that reads back as `n` units, of several the nearest; 17 digits always suffice -/
def shortest (n : Nat) : Form :=
  if n = 0 then ⟨0, 0⟩ else search n (magnitude n Double.one) 1 17

/-- how a number is laid out -/
structure Layout where
  /-- least exponent of the first digit that is written positionally -/
  least : Int
  /-- first exponent of the first digit that is written with a power of ten -/
  first : Int
  /-- least number of digits of an exponent -/
  exponentDigits : Nat
  nan : String
  infinity : String

/-- documents write numbers positionally from 0.0001 up to ten to the sixteenth, with a fraction even when it is zero -/
def document : Layout := ⟨-4, 16, 2, "nan", "inf"⟩

/-- at least `width` digits, zeros on the left -/
def padLeft (width : Nat) (s : String) : String :=
  String.ofList (List.replicate (width - s.length) '0') ++ s

/-- digits with the point after `point` of them; zeros fill up on either side -/
def positional (digits : List Char) (point : Int) : List Char :=
  if point ≤ 0 then '0' :: '.' :: (List.replicate (-point).toNat '0' ++ digits)
  else
    let k := point.toNat
    let whole := digits.take k ++ List.replicate (k - digits.length) '0'
    let fraction := digits.drop k
    whole ++ '.' :: (if fraction.isEmpty then ['0'] else fraction)

/-- digits with one before the point and a power of ten -/
def scientific (l : Layout) (digits : List Char) (e : Int) : List Char :=
  let mantissa :=
    match digits with
    | [] => []
    | d :: [] => [d]
    | d :: rest => d :: '.' :: rest
  let sign := if e < 0 then '-' else '+'
  mantissa ++ 'e' :: sign :: (padLeft l.exponentDigits (toString e.natAbs)).toList

/-- the digits of a natural number without the zeros at its end, and how many zeros were left out -/
def trimZeros (digits : List Char) : List Char × Nat :=
  let kept := (digits.reverse.dropWhile (· == '0')).reverse
  if kept.isEmpty then (['0'], 0) else (kept, digits.length - kept.length)

/-- the text of a magnitude of `n` units -/
def renderUnits (l : Layout) (n : Nat) : List Char :=
  let f := shortest n
  let all := (toString f.digits).toList
  let digits := (trimZeros all).1
  let e := f.exponent + all.length - 1
  if n = 0 then positional ['0'] 1
  else if l.least ≤ e ∧ e < l.first then positional digits (e + 1)
  else scientific l digits e

/-- the text of a double -/
def render (l : Layout) (x : Double) : String :=
  match x with
  | .nan => l.nan
  | .infinite s => (if s then "-" else "") ++ l.infinity
  | .negativeZero => "-" ++ String.ofList (renderUnits l 0)
  | .finite n _ => (if n < 0 then "-" else "") ++ String.ofList (renderUnits l n.natAbs)

/-- a finite double rounded to `places` decimal places, a half going to the even digit, as a double again -/
def roundTo (places : Nat) (x : Double) : Double :=
  match x with
  | .finite n _ => toDouble (n < 0) (roundHalfEven (n.natAbs * Nat.pow 10 places) Double.one) (-(places : Int))
  | x => x

/-- the text of a double with exactly one decimal place, a half going to the even digit -/
def oneTenth (x : Double) : String :=
  match x with
  | .nan => "nan"
  | .infinite s => if s then "-inf" else "inf"
  | _ =>
    let tenths := roundHalfEven ((x.units?.getD 0).natAbs * 10) Double.one
    (if x.isNegative then "-" else "") ++ toString (tenths / 10) ++ "." ++ toString (tenths % 10)

end Decimal

namespace Double

/-- the text of a double in a document -/
def toText (x : Double) : String := Decimal.render Decimal.document x

end Double

end WorkflowGraph
