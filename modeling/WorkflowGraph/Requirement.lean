import WorkflowGraph.Resolver.Basic
import WorkflowGraph.Text.Caseless
/-
Requirements: the steps of a plan, each with its node type and the motifs that its own words announce. A step may fan out
into parallel rows, route to one of several steps, or merge what came before; and it may name a channel, by which
parallel rows and routes are told apart.
-/
namespace WorkflowGraph

/-- one step of a plan -/
structure Requirement where
  name : String
  description : String
  type : String
  branchId : Int
  confidence : Numeric
  isParallel : Bool
  isSwitch : Bool
  isMerge : Bool
  /-- how the type was found, when it was -/
  resolution : Option Resolution

namespace Requirement

def isMotif (r : Requirement) : Bool := r.isParallel || r.isSwitch || r.isMerge

/-- name and description as one text -/
def text (r : Requirement) : String := r.name ++ " " ++ r.description

/-! ## Motifs -/

def parallelMarkers : List String := [
  "parallel execution", "parallel processing", "(parallel)", "simultaneously", "at the same time"]

def switchMarkers : List String := [
  "switch", "route", "router", "routing", "decision", "evaluation", "condition", "branches:"]

/-- sets of words that announce a merge when all of a set occur -/
def mergeMarkers : List (List String) := [["merge"], ["collect", "results"]]

/-- the requirement with the motifs that its text and its type announce -/
def markMotifs (r : Requirement) : Requirement :=
  let lower := Text.lower r.text
  let short := Catalog.shortType r.type
  { r with
    isParallel := Text.containsAny lower parallelMarkers
    isSwitch := short == "switch" || Text.containsAny lower switchMarkers
    isMerge := short == "merge" || mergeMarkers.any (Text.containsAll lower) }

/-! ## Channels -/

def channels : List String := [
  "stripe", "paypal", "crypto", "email", "sms", "slack", "telegram", "dhl", "ups", "fedex"]

/-- the first channel that the requirement names as a whole word, in small letters -/
def channel (r : Requirement) : Option String :=
  (Text.firstWord (channels.map String.toList) none r.text.toList).map fun w => Text.lower (String.ofList w)

end Requirement

end WorkflowGraph
