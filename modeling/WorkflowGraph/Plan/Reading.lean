import WorkflowGraph.Parameters.Defaults
import WorkflowGraph.Plan.Fields
import WorkflowGraph.Plan.Sections
import WorkflowGraph.Plan.Steps
/-
Reading a plan from a planner's text. Two grammars are tried and the first one that yields a branch decides; a text that
fits neither gives a plan without branches. The type of a step is the one its text names, or what the resolver answers.
-/
namespace WorkflowGraph

namespace Plan

/-! ## Requirements -/

/-- the type of a step: the one it names, or what the resolver answers for its text -/
def resolveStep (resolver : Resolver) (s : Step) : Resolution × Trace :=
  match s.explicitType with
  | some type =>
    (⟨Parameters.canonicalType type, .double (Double.ofNat 1), "Explicit node type in prompt", [], .explicit⟩, [])
  | none => resolver s.resolveText

/-- the requirement of a step; its motifs are read from the text that its type was found by -/
def Step.requirement (s : Step) (branchId : Int) (r : Resolution) : Requirement :=
  let marked := Requirement.markMotifs
    ⟨s.name, s.resolveText, r.nodeType, branchId, r.confidence, false, false, false, some r⟩
  { marked with description := s.description }

/-- what is decided on a step -/
def stepEvents (resolver : Resolver) (s : Step) : Trace :=
  let (r, events) := resolveStep resolver s
  events ++
    if r.isAmbiguous then [Event.of "extractor" "low-confidence" (("node", .text s.name) :: r.toDetail)] else []

/-- the requirements of some steps, those that repeat the trigger left out -/
def requirements (resolver : Resolver) (branchId : Int) (steps : List Step) : List Requirement :=
  (elideTriggers steps).map fun s => s.requirement branchId (resolveStep resolver s).1

/-- what is decided on some steps -/
def requirementEvents (resolver : Resolver) (steps : List Step) : Trace :=
  elisionEvents steps ++ (elideTriggers steps).flatMap (stepEvents resolver)

/-! ## Grammars -/

/-- the steps of a section -/
def BranchSection.steps (s : BranchSection) : List Step := (flowLines s.body).map flowStep

/-- the branches of the sections of a text -/
def sectionBranches (resolver : Resolver) (cs : List Char) : List PlanBranch :=
  (branchSections cs).zipIdx.map fun (s, i) =>
    ⟨i + 1, s.name, triggerOf s.body, requirements resolver (i + 1) s.steps⟩

def sectionEvents (resolver : Resolver) (cs : List Char) : Trace :=
  (branchSections cs).flatMap fun s => requirementEvents resolver s.steps

/-- the one branch of the numbered steps of a text, none when no step is left -/
def stepBranches (resolver : Resolver) (cs : List Char) : List PlanBranch :=
  match requirements resolver 1 (boldSteps (Text.lines cs)) with
  | [] => []
  | rs => [⟨1, "Main Workflow", defaultTrigger, rs⟩]

def stepBranchEvents (resolver : Resolver) (cs : List Char) : Trace :=
  requirementEvents resolver (boldSteps (Text.lines cs))

/-- a way to read branches from a text -/
structure Grammar where
  name : String
  branches : Resolver → List Char → List PlanBranch
  events : Resolver → List Char → Trace

/-- the grammars in the order in which they are tried -/
def grammars : List Grammar := [
  ⟨"branch-sections", sectionBranches, sectionEvents⟩,
  ⟨"numbered-steps", stepBranches, stepBranchEvents⟩]

/-- the branches by the first grammar that yields one, with what was decided -/
def readBranches (resolver : Resolver) (cs : List Char) : List Grammar → List PlanBranch × Trace
  | [] => ([], [Event.of "extractor" "no-grammar-matched" []])
  | g :: rest =>
    let branches := g.branches resolver cs
    if branches.isEmpty then
      let (found, events) := readBranches resolver cs rest
      (found, g.events resolver cs ++ events)
    else
      let count : Int := (branches.flatMap (·.requirements)).length
      (branches, g.events resolver cs ++
        [Event.of "extractor" g.name [("branches", (branches.length : Int)), ("requirements", count)]])

/-! ## Plans -/

/-- the plan in a text, with what was decided on the way -/
def read (resolver : Resolver) (text : String) : Plan × Trace :=
  let cs := text.toList
  let (branches, events) := readBranches resolver cs grammars
  let concerns := if asksForErrorHandling cs then [errorHandling] else []
  (⟨nameOf cs, branches, complexity? cs, concerns⟩,
    events ++ concerns.map fun (c : String) => Event.of "extractor" "global-requirement" [("requirement", .text c)])

end Plan

end WorkflowGraph
