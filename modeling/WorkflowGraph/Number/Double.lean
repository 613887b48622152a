/-
Binary floating-point numbers of double precision as exact integers.

A finite double is a whole number of units, one unit being 2⁻¹⁰⁷⁴, with at most 53 significant bits. Order and
equality of finite doubles are order and equality of these integers, and every arithmetic operation is one exact
operation on integers followed by one rounding: to the nearest double, a half going to the neighbour whose last
bit is zero. Nothing is opaque, so statements about positions and scores reduce to statements about integers.
-/
namespace WorkflowGraph

namespace Double

/-- significant bits of a double -/
def significantBits : Nat := 53

/-- one, counted in units of 2⁻¹⁰⁷⁴ -/
def one : Nat := Nat.pow 2 1074

/-- the first power of two that no finite double reaches, in units -/
def limit : Nat := Nat.pow 2 2098

/-- how many low bits a magnitude of `n` units cannot keep -/
def lostBits (n : Nat) : Nat := n.log2 - (significantBits - 1)

/-- a magnitude, in units, that a finite double can hold -/
def Fits (n : Nat) : Prop := n < limit ∧ n % Nat.pow 2 (lostBits n) = 0

instance (n : Nat) : Decidable (Fits n) := inferInstanceAs (Decidable (_ ∧ _))

/-- the quotient `a / d` rounded to 53 significant bits, never finer than one unit; a half goes to the even side -/
def roundQuotient (a d : Nat) : Nat :=
  let step := Nat.pow 2 (lostBits (a / d))
  let q := a / (d * step)
  let r := a % (d * step)
  let up := d * step < 2 * r ∨ (2 * r = d * step ∧ q % 2 = 1)
  (if up then q + 1 else q) * step

end Double

/-- a double: not a number, an infinity, the negative zero, or a finite number of units -/
inductive Double where
  | nan
  | infinite (negative : Bool)
  | negativeZero
  | finite (units : Int) (fits : Double.Fits units.natAbs)
  deriving DecidableEq

namespace Double

/-! ## Rounding -/

/-- the double of a sign and a magnitude that is already rounded; beyond the range it is an infinity -/
def ofMagnitude (negative : Bool) (n : Nat) : Double :=
  if negative ∧ n = 0 then .negativeZero
  else
    let units : Int := if negative then -(n : Int) else n
    if h : Fits units.natAbs then .finite units h else .infinite negative

/-- the double nearest to `±a / d` units -/
def ofQuotient (negative : Bool) (a d : Nat) : Double := ofMagnitude negative (roundQuotient a d)

/-- the double nearest to a whole number of units; zero is positive -/
def ofUnits (n : Int) : Double := ofQuotient (n < 0) n.natAbs 1

def zero : Double := ofUnits 0

/-- the double nearest to a whole number, if that is in range -/
def ofInt? (i : Int) : Option Double :=
  match ofUnits (i * one) with
  | .infinite _ => none
  | x => some x

/-- the double nearest to `a / d` -/
def ofRatio (negative : Bool) (a d : Nat) : Double := ofQuotient negative (a * one) d

/-- the double nearest to a natural number -/
def ofNat (n : Nat) : Double := ofRatio false n 1

/-! ## Views -/

def isNan : Double → Bool
  | .nan => true
  | _ => false

def isNegative : Double → Bool
  | .nan => false
  | .infinite s => s
  | .negativeZero => true
  | .finite n _ => n < 0

/-- the number of units of a finite double -/
def units? : Double → Option Int
  | .negativeZero => some 0
  | .finite n _ => some n
  | _ => none

/-- the whole number that a double equals -/
def whole? (x : Double) : Option Int :=
  match x.units? with
  | some n => if n % one = 0 then some (n / one) else none
  | none => none

/-- what is left of a finite double without its fraction -/
def truncate? (x : Double) : Option Int := x.units?.map (·.tdiv one)

/-! ## Order -/

/-- the place of a double in the order; the infinities stand just outside the range -/
def rank? : Double → Option Int
  | .nan => none
  | .infinite true => some (-limit)
  | .infinite false => some limit
  | .negativeZero => some 0
  | .finite n _ => some n

/-- `x ≤ y`; false when either is not a number -/
def le (x y : Double) : Bool :=
  match x.rank?, y.rank? with
  | some a, some b => a ≤ b
  | _, _ => false

/-- `x < y`; false when either is not a number -/
def lt (x y : Double) : Bool :=
  match x.rank?, y.rank? with
  | some a, some b => a < b
  | _, _ => false

/-- `x ≤ i` for a whole number of any size -/
def leInt (x : Double) (i : Int) : Bool :=
  match x with
  | .nan => false
  | .infinite s => s
  | .negativeZero => 0 ≤ i
  | .finite n _ => n ≤ i * one

/-- `i ≤ x` for a whole number of any size -/
def geInt (x : Double) (i : Int) : Bool :=
  match x with
  | .nan => false
  | .infinite s => !s
  | .negativeZero => i ≤ 0
  | .finite n _ => i * one ≤ n

/-! ## Arithmetic -/

def neg : Double → Double
  | .nan => .nan
  | .infinite s => .infinite (!s)
  | .negativeZero => zero
  | .finite n h => if n = 0 then .negativeZero else .finite (-n) (by rwa [Int.natAbs_neg])

def abs (x : Double) : Double := if x.isNegative then x.neg else x

def add : Double → Double → Double
  | .nan, _ => .nan
  | _, .nan => .nan
  | .infinite s, .infinite t => if s = t then .infinite s else .nan
  | .infinite s, _ => .infinite s
  | _, .infinite t => .infinite t
  | .negativeZero, y => y
  | x, .negativeZero => x
  | .finite m _, .finite n _ => ofUnits (m + n)

def sub (x y : Double) : Double := x.add y.neg

def mul (x y : Double) : Double :=
  let negative := x.isNegative != y.isNegative
  match x, y with
  | .nan, _ => .nan
  | _, .nan => .nan
  | .infinite _, y => if y.units? = some 0 then .nan else .infinite negative
  | x, .infinite _ => if x.units? = some 0 then .nan else .infinite negative
  | .negativeZero, _ => ofMagnitude negative 0
  | _, .negativeZero => ofMagnitude negative 0
  | .finite m _, .finite n _ => ofQuotient negative (m.natAbs * n.natAbs) one

/-- a double divided by a positive whole number that is itself a double -/
def divNat (x : Double) (d : Nat) : Double :=
  match x with
  | .finite n _ => ofQuotient (n < 0) n.natAbs d
  | x => x

/-- the larger of two, the first when neither is larger -/
def max (x y : Double) : Double := if x.lt y then y else x

/-- the smaller of two, the first when neither is smaller -/
def min (x y : Double) : Double := if y.lt x then y else x

/-! ## Square root -/

/-- the whole part of the square root, two bits of the argument at a time -/
def isqrt (n : Nat) : Nat :=
  if h : n = 0 then 0
  else
    let r := 2 * isqrt (n / 4)
    if (r + 1) * (r + 1) ≤ n then r + 1 else r
  termination_by n
  decreasing_by exact Nat.div_lt_self (Nat.pos_of_ne_zero h) (by decide)

/-- the square root; the part below the bits kept only tells whether the root was exact, so ties never arise -/
def sqrt (x : Double) : Double :=
  match x with
  | .finite n _ =>
    if n < 0 then .nan
    else
      let radicand := n.natAbs * one
      let half := (radicand.log2 - 110) / 2
      let top := radicand / Nat.pow 4 half
      let root := isqrt top
      let sticky := if root * root * Nat.pow 4 half = radicand then 0 else 1
      ofQuotient false ((2 * root + sticky) * Nat.pow 2 half) 2
  | .negativeZero => .negativeZero
  | .infinite false => .infinite false
  | _ => .nan

end Double

end WorkflowGraph
