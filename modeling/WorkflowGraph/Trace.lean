import WorkflowGraph.Fault
/-
The decision trace: the events of one run in order, each the stage and the rule that decided and the details of the
decision. Stages hand out lists of events, so a trace is the concatenation of what the stages of a run decided.
-/
namespace WorkflowGraph

/-- one decision -/
structure Event where
  stage : String
  rule : String
  detail : Fields

abbrev Trace := List Event

namespace Event

/-- an event whose details are named by texts -/
def of (stage rule : String) (detail : List (String × Value)) : Event :=
  ⟨stage, rule, detail.map fun (name, v) => (.text name, v)⟩

/-- the event as one object; a detail named like the stage or the rule takes its place -/
def toFields (e : Event) : Fields :=
  Table.putAll [(.text "stage", .text e.stage), (.text "rule", .text e.rule)] e.detail

def toValue (e : Event) : Value := .object e.toFields

end Event

namespace Trace

/-- names that a recorded detail may not have, being those of the event's own parts -/
def reserved : List String := ["self", "stage", "rule"]

/-- the trace with an event at its end; a detail may not carry a reserved name -/
def record (t : Trace) (e : Event) : Except Fault Trace :=
  if reserved.any fun name => Table.has (.text name) e.detail then .error .wrongKind else .ok (t ++ [e])

def byStage (t : Trace) (stage : String) : List Event := t.filter (·.stage = stage)

/-- the rules of all events, or of the events of one stage -/
def rules (t : Trace) (stage : Option String) : List String :=
  (t.filter fun e => stage.all (· = e.stage)).map (·.rule)

def toValue (t : Trace) : Value := .list (t.map Event.toValue)

end Trace

end WorkflowGraph
