import WorkflowGraph.Requirement
/-
Plans: what a planner's text asks for. A plan has branches, each started by its own trigger, and concerns that hold for
the whole workflow.
-/
namespace WorkflowGraph

/-- one branch of a plan -/
structure PlanBranch where
  branchId : Int
  name : String
  triggerType : String
  requirements : List Requirement

/-- what a text asks for -/
structure Plan where
  workflowName : String
  branches : List PlanBranch
  /-- the least and the greatest number of nodes that are expected -/
  complexity : Option (Nat × Nat)
  /-- concerns of the whole workflow -/
  concerns : List String

namespace Plan

/-- the trigger of a branch that names none -/
def defaultTrigger : String := "webhook"

/-- the concern that asks for the handling of errors -/
def errorHandling : String := "error-handling"

def requirementCount (p : Plan) : Nat := (p.branches.flatMap (·.requirements)).length

/-- the expected number of nodes as a value -/
def complexityValue : Option (Nat × Nat) → Value
  | some (least, most) => .object [(.text "min", .int least), (.text "max", .int most)]
  | none => .null

/-! ## Steps -/

/-- words in the name of a step that only repeats the trigger -/
def triggerMarkers : List String := ["trigger", "order received"]

def isTriggerStep (name : String) : Bool := Text.containsAny (Text.lower name) triggerMarkers

/-- a step before its type is known: its name, its description, the text that its type is found by, and its explicit
type if it has one -/
structure Step where
  name : String
  description : String
  resolveText : String
  explicitType : Option String

/-- the steps without those at the start that only repeat the trigger -/
def elideTriggers (steps : List Step) : List Step := steps.dropWhile fun s => isTriggerStep s.name

def elisionEvents (steps : List Step) : Trace :=
  (steps.takeWhile fun s => isTriggerStep s.name).map fun s =>
    Event.of "extractor" "trigger-step-elided" [("step", s.name)]

end Plan

end WorkflowGraph
