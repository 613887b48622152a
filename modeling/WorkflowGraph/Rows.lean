import WorkflowGraph.Node
import WorkflowGraph.Number.Numeric
/-
Rows: nodes whose vertical positions differ little stand on one row. The neighbour of a node on its row is the nearest
one to its right or to its left. A node without a readable position stands at the origin.
-/
namespace WorkflowGraph

/-- a place on the canvas -/
structure Place where
  x : Double
  y : Double

namespace Node

/-- where the node stands; whole numbers beyond the doubles are no place -/
def place (n : Node) : Except Fault Place :=
  match n.get "position" with
  | .list [a, b] =>
    match Numeric.ofValue? a, Numeric.ofValue? b with
    | some x, some y => do return ⟨← x.toDouble, ← y.toDouble⟩
    | _, _ => .ok ⟨.zero, .zero⟩
  | _ => .ok ⟨.zero, .zero⟩

end Node

namespace Rows

/-- whether two places are on one row -/
def sameRow (tolerance : Numeric) (a b : Place) : Bool := (Numeric.double (a.y.sub b.y).abs).le tolerance

/-- a node with a distance -/
structure Near (α : Type) where
  item : α
  distance : Double

/-- the nearer of the best so far and another; of two equally near ones the first stays -/
def nearer {α : Type} (best : Option (Near α)) (other : Near α) : Option (Near α) :=
  match best with
  | none => some other
  | some b => if other.distance.lt b.distance then some other else some b

variable {α : Type} (view : α → Node)

/-- the nearest of some candidates by a distance that only neighbours have; nodes of the same name are no neighbours -/
def nearest (node : Node) (distance : Place → Place → Except Fault (Option Double)) (origin : Place) :
    Option (Near α) → List α → Except Fault (Option (Near α))
  | best, [] => .ok best
  | best, c :: rest =>
    if (view c).name == node.name then nearest node distance origin best rest
    else do
      let place ← (view c).place
      match ← distance origin place with
      | none => nearest node distance origin best rest
      | some d => nearest node distance origin (nearer best ⟨c, d⟩) rest

/-- how far a place is to the right, as long as it is on the row and more than `minDx` away -/
def rightDistance (tolerance minDx : Numeric) (a b : Place) : Except Fault (Option Double) := do
  let least := a.x.add (← minDx.toDouble)
  return if b.x.le least || !sameRow tolerance a b then none else some (b.x.sub a.x)

/-- the square of a double; a square beyond the doubles is none -/
def square (x : Double) : Except Fault Double :=
  match x.mul x with
  | .infinite s => if x.units?.isSome then .error .tooLarge else .ok (.infinite s)
  | y => .ok y

/-- how far a place is away in a straight line, as long as it is to the left on the row -/
def leftDistance (tolerance : Numeric) (a b : Place) : Except Fault (Option Double) :=
  if a.x.le b.x || !sameRow tolerance a b then .ok none
  else do
    let dx ← square (b.x.sub a.x)
    let dy ← square (b.y.sub a.y)
    return some (dx.add dy).sqrt

/-- the nearest candidate to the right of a node on its row -/
def successor (tolerance minDx : Numeric) (node : Node) (candidates : List α) : Except Fault (Option α) := do
  let found ← nearest view node (rightDistance tolerance minDx) (← node.place) none candidates
  return found.map (·.item)

/-- the nearest candidate to the left of a node on its row -/
def predecessor (tolerance : Numeric) (node : Node) (candidates : List α) : Except Fault (Option α) := do
  let found ← nearest view node (leftDistance tolerance) (← node.place) none candidates
  return found.map (·.item)

end Rows

end WorkflowGraph
