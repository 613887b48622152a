import WorkflowGraph.Input
import WorkflowGraph.PostProcessor
import WorkflowGraph.Plan.Reading
import WorkflowGraph.Repair
import WorkflowGraph.Synthesis.Build
import WorkflowGraph.Validation
/-
The whole way from an input to a document that is handed over, with an assessment of it. A draft is built as it is given
and a text by way of its plan; the document is validated, repaired if that is asked for and validated again if the repair
changed anything, and at last post-processed. The assessment is about the document before the post-processor.
-/
namespace WorkflowGraph

/-- a node whose type is doubtful, as the event about it tells -/
structure Ambiguity where
  node : Value
  nodeType : Value
  confidence : Value
  reasoning : Value
  alternatives : List Value

namespace Ambiguity

/-- the rule of the events that tell of doubtful types -/
def rule : String := "low-confidence"

def ofEvent? (e : Event) : Option Ambiguity :=
  if e.rule = rule then
    let get (name : String) : Option Value := Table.get? (.text name) e.detail
    some ⟨(get "node").getD "", (get "nodeType").getD .null, (get "confidence").getD .null,
      (get "reasoning").getD "", ((get "alternatives").bind Value.list?).getD []⟩
  else none

def toValue (a : Ambiguity) : Value :=
  .object [(.text "node", a.node), (.text "nodeType", a.nodeType), (.text "confidence", a.confidence),
    (.text "reasoning", a.reasoning), (.text "alternatives", .list a.alternatives)]

end Ambiguity

/-- what is known about a document that is handed over -/
structure Assessment where
  report : Report
  ambiguities : List Ambiguity
  /-- values that a user still has to supply, each with the name of its node -/
  needed : List (Value × Parameters.UserValue)
  /-- how many fixes the repair made -/
  repairs : Nat
  /-- the number of nodes that the text expected -/
  expected : Option (Nat × Nat)

namespace Assessment

def neededValue (needed : Value × Parameters.UserValue) : Value :=
  .object [(.text "node", needed.1), (.text "parameter", .text needed.2.parameter), (.text "kind", .text needed.2.kind),
    (.text "description", .text needed.2.description)]

def toFields (a : Assessment) : List (String × Value) :=
  a.report.toFields ++ [
    ("ambiguities", .list (a.ambiguities.map Ambiguity.toValue)),
    ("userRequiredValues", .list (a.needed.map neededValue)),
    ("repairs", .int a.repairs),
    ("expectedComplexity", Plan.complexityValue a.expected)]

end Assessment

/-- a document that is handed over -/
structure Delivery where
  document : Value
  assessment : Assessment
  sources : Identifiers
  trace : Trace

namespace Delivery

/-- the document of an input before it is checked, and the number of nodes that its text expects -/
def construct (cfg : BuildConfig) (sources : Identifiers) : Input → Except Fault (Built × Option (Nat × Nat))
  | .draft fields => do
    return (← Draft.build cfg.resolver sources (.object fields), none)
  | .prompt text => do
    let cs := text.toList
    let (plan, events) := Plan.read cfg.resolver (String.ofList (Prompt.normalize cfg.maxInputChars cs))
    if plan.requirementCount = 0 then throw (.structural .noSteps)
    let built ← Synthesis.build cfg sources plan
    return ({ built with trace := Prompt.normalizeEvents cfg.maxInputChars cs ++ events ++ built.trace },
      plan.complexity)

/-- the document after its repair, if that is asked for, and the report on it -/
def settle (cfg : BuildConfig) (repairing : Bool) (document : Value) : Except Fault (Repaired × Report) := do
  let report ← validate cfg document
  if !repairing then return (⟨document, 0, []⟩, report)
  let repaired ← repair cfg document
  if repaired.fixes = 0 then return (repaired, report)
  return (repaired, ← validate cfg repaired.document)

/-- the document of an input, ready to be handed over -/
def make (cfg : BuildConfig) (finish : PostProcessor) (repairing : Bool) (sources : Identifiers) (input : Input) :
    Except Fault Delivery := do
  let (built, expected) ← construct cfg sources input
  let (settled, report) ← settle cfg repairing (.object built.document)
  let needed ← Parameters.neededValues settled.document
  let trace := built.trace ++ settled.trace
  let assessment : Assessment := ⟨report, trace.filterMap Ambiguity.ofEvent?, needed, settled.fixes, expected⟩
  return ⟨← finish settled.document, assessment, built.sources, trace⟩

end Delivery

end WorkflowGraph
