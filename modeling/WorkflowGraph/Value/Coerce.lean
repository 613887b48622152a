import WorkflowGraph.Fault
import WorkflowGraph.Text.Numeral
/-
Reading a value as a whole number or as a double. Texts are read as numerals, a double loses its fraction when a whole
number is asked for, and a truth value counts as zero or one.
-/
namespace WorkflowGraph

namespace Value

/-- the whole number that a value stands for -/
def toWhole : Value → Except CoercionFault Int
  | .bool b => .ok (if b then 1 else 0)
  | .int i => .ok i
  | .float x =>
    match x.truncate? with
    | some i => .ok i
    | none => .error (if x.isNan then .nanToWhole else .infinityToWhole)
  | .text s =>
    match Text.toInt? s with
    | some i => .ok i
    | none => .error (.notWhole (Text.quoted s))
  | v => .error (.wholeOfKind v.kind)

/-- the double of a whole number that is in range -/
def doubleOfInt (i : Int) : Except CoercionFault Double :=
  match Double.ofInt? i with
  | some x => .ok x
  | none => .error .wholeTooLarge

/-- the double that a value stands for -/
def toDouble : Value → Except CoercionFault Double
  | .bool b => doubleOfInt (if b then 1 else 0)
  | .int i => doubleOfInt i
  | .float x => .ok x
  | .text s =>
    match Text.toDouble? s with
    | some x => .ok x
    | none => .error (.notDouble (Text.quoted s))
  | v => .error (.doubleOfKind v.kind)

end Value

end WorkflowGraph
