import WorkflowGraph.Value.Coerce
/-
Numbers as values hold them: whole numbers of any size and doubles. They are compared by what they stand for, without
rounding one to the other's form.
-/
namespace WorkflowGraph

inductive Numeric where
  | whole (i : Int)
  | double (x : Double)
  deriving DecidableEq

namespace Numeric

instance : Inhabited Numeric := ⟨.whole 0⟩

def ofValue? : Value → Option Numeric
  | .int i => some (.whole i)
  | .float x => some (.double x)
  | _ => none

def toValue : Numeric → Value
  | .whole i => .int i
  | .double x => .float x

/-- `a ≤ b`; false when either is not a number -/
def le : Numeric → Numeric → Bool
  | .whole a, .whole b => a ≤ b
  | .double x, .whole b => x.leInt b
  | .whole a, .double y => y.geInt a
  | .double x, .double y => x.le y

/-- `a < b`; false when either is not a number -/
def lt : Numeric → Numeric → Bool
  | .whole a, .whole b => a < b
  | .double x, .whole b => x.leInt b && !x.geInt b
  | .whole a, .double y => y.geInt a && !y.leInt a
  | .double x, .double y => x.lt y

/-- the number as a double, if it is in range -/
def toDouble : Numeric → Except Fault Double
  | .double x => .ok x
  | .whole i =>
    match Double.ofInt? i with
    | some x => .ok x
    | none => .error .tooLarge

end Numeric

end WorkflowGraph
