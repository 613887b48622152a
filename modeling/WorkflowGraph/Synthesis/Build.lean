import WorkflowGraph.Draft.Build
import WorkflowGraph.Schedule
import WorkflowGraph.Synthesis.Motifs
/-
Building a document from a plan. Each branch is laid out from its trigger, below the branch before it, and ends with an
answer when a webhook started it; a plan that asks for the handling of errors gets a trigger and a message for that.
-/
namespace WorkflowGraph

namespace Synthesis

/-! ## Triggers -/

/-- words that ask for a schedule -/
def scheduleWords : List String := ["schedule", "cron", "every", "daily", "hourly", "weekly", "monthly"]

/-- a trigger chosen by the words of a text in lower case -/
def placeTrigger (c : Canvas) (lower : String) (x y : Int) : String × Canvas :=
  let add (short wanted : String) (params : Fields) : String × Canvas :=
    c.add ⟨Catalog.fullTag short, wanted, x, y, params, 1, .trigger⟩
  if Text.contains lower "webhook" then
    add "webhook" "Webhook Trigger" [(.text "path", .text "/webhook"), (.text "httpMethod", .text "POST")]
  else if Text.containsAny lower scheduleWords then
    let t := Schedule.timing lower
    let rule := Parameters.object [("field", "cronExpression"), ("expression", .text t.cron)]
    let (name, c) := add "scheduleTrigger" "Schedule Trigger"
      [(.text "rule", Parameters.object [("interval", .list [rule])])]
    (name, c.note "schedule" [("pattern", t.pattern), ("cron", t.cron)])
  else if Text.contains lower "error" then add "errorTrigger" "Error Trigger" []
  else add "manualTrigger" "Manual Trigger" []

/-- the trigger of a branch -/
def addTrigger (c : Canvas) (text : String) (x y : Int) : String × Canvas :=
  let lower := Text.lower text
  let (name, c) := placeTrigger c lower x y
  (name, c.note "trigger" [("branch_trigger", lower), ("node", name)])

/-! ## Branches -/

def responseType : String := Catalog.fullTag "respondToWebhook"

/-- whether a node answers the caller of a webhook, by its type or by its name -/
def isResponse (c : Canvas) (name : String) : Bool :=
  match c.nodes.find? fun n => n.name = name with
  | some n => n.type = responseType || Text.contains (Text.lower name) "respon"
  | none => false

/-- whether a branch owes an answer to its caller -/
def owesResponse (b : PlanBranch) : Bool := Text.contains b.triggerType "webhook"

/-- an answer at the end of a branch, unless its last node is one -/
def addResponse (c : Canvas) (at' : Cursor) (y : Int) : Canvas :=
  if isResponse c at'.current then c
  else
    let (name, c) := c.add ⟨responseType, "Respond to Webhook", at'.x, y, [], 1, .response⟩
    c.connect at'.current 0 name 0

/-- a branch laid out on a row of its own -/
def layBranch (cfg : BuildConfig) (c : Canvas) (number : Nat) (b : PlanBranch) (y : Int) : Canvas :=
  let c := { c with branch := some number, lowestY := y }
  let (trigger, c) := addTrigger c b.triggerType cfg.startX y
  let (c, stop) := layAll cfg (owesResponse b) c ⟨trigger, cfg.startX + cfg.spacingX⟩ y b.requirements
  if owesResponse b then addResponse c stop y else c

/-- branches below one another, the first having the given number -/
def layBranches (cfg : BuildConfig) (c : Canvas) (number : Nat) (y : Int) : List PlanBranch → Canvas
  | [] => c
  | b :: rest =>
    let c := layBranch cfg c number b y
    layBranches cfg c (number + 1) (c.lowestY + cfg.branchGap) rest

/-! ## Errors -/

/-- a trigger for errors and a message about them, above all branches -/
def addErrorHandling (cfg : BuildConfig) (c : Canvas) : Canvas :=
  let c := { c with branch := none }
  let y := cfg.startY - 200
  let (handler, c) := c.add ⟨Catalog.fullTag "errorTrigger", "Error Handler", cfg.startX, y, [], 1, .errorHandling⟩
  let (notify, c) := c.add ⟨Catalog.fullTag "emailSend", "Error Notification", cfg.startX + cfg.spacingX, y,
    [(.text "subject", .text "=Workflow Error: \x7b\x7b $node[\"Error Handler\"].json.workflow.name \x7d\x7d"),
      (.text "text", .text "=Error: \x7b\x7b $node[\"Error Handler\"].json.error.message \x7d\x7d")], 1, .errorHandling⟩
  (c.connect handler 0 notify 0).note "error-handling" [("nodes", .list [.text handler, .text notify])]

/-! ## The document -/

/-- the plan laid out on an empty canvas -/
def lay (cfg : BuildConfig) (sources : Identifiers) (p : Plan) : Canvas :=
  let c := layBranches cfg (.empty sources) 0 cfg.startY p.branches
  if p.concerns.contains Plan.errorHandling then addErrorHandling cfg c else c

/-- the document of a plan -/
def build (cfg : BuildConfig) (sources : Identifiers) (p : Plan) : Except Fault Built := do
  let (document, sources) ← newDocument sources (.text p.workflowName)
  let c := lay cfg sources p
  let document := Table.putAll document
    [(.text "nodes", .list (c.nodes.map fun n => n.toNode.toValue)), (.text "connections", c.connections.toValue)]
  return ⟨document, c.sources, c.trace⟩

end Synthesis

end WorkflowGraph
