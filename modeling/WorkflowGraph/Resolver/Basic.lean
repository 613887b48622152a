import WorkflowGraph.Number.Numeric
import WorkflowGraph.Resolver.Concepts
import WorkflowGraph.Resolver.Scoring
import WorkflowGraph.Text.Blank
import WorkflowGraph.Trace
/-
The resolver: from a free text to a node type and how sure that is.

Four tiers decide, the first hit wins: the meaning of the text scored against all concepts, as far as the score is high
enough; the words of the catalog; phrases that stand for a type; and a type for everything else. The answer names the
next best types by meaning as alternatives.
-/
namespace WorkflowGraph

/-- the tier that decided on a type, or the prompt itself -/
inductive MatchSource where
  | semantic
  | catalog
  | override
  | default
  | explicit
  deriving DecidableEq

def MatchSource.word : MatchSource → String
  | .semantic => "semantic"
  | .catalog => "catalog"
  | .override => "override"
  | .default => "default"
  | .explicit => "explicit"

/-- a node type for a text -/
structure Resolution where
  nodeType : String
  confidence : Numeric
  reasoning : String
  alternatives : List String
  source : MatchSource

namespace Resolution

/-- the confidence below which a type is doubtful -/
def doubtful : Double := Scoring.decimal 5 (-1)

def isAmbiguous (r : Resolution) : Bool := r.confidence.lt (.double doubtful)

/-- the parts of a match as details of an event -/
def toDetail (r : Resolution) : List (String × Value) := [
  ("nodeType", r.nodeType), ("confidence", r.confidence.toValue), ("reasoning", r.reasoning),
  ("alternatives", .list (r.alternatives.map Value.text)), ("source", r.source.word)]

end Resolution

/-- from a text to a node type, with what was decided on the way -/
abbrev Resolver := String → Resolution × Trace

namespace Resolver

open Text

def defaultNodeType : String := Catalog.fullTag "function"

def defaultConfidence : Double := Scoring.decimal 3 (-1)

def catalogConfidence : Double := Scoring.decimal 45 (-2)

def overrideConfidence : Double := Scoring.decimal 4 (-1)

/-- phrases that stand for a node type when all of them occur -/
def overrides : List (List String × String) := [
  (["central router"], Catalog.fullTag "switch"),
  (["route based on"], Catalog.fullTag "switch"),
  (["collect", "results"], Catalog.fullTag "merge")]

/-! ## Candidates -/

/-- a node type that fits a text by meaning -/
structure Candidate where
  type : String
  score : Double
  reasoning : String

/-- half the keyword score, three tenths of the concept score and two tenths of the use-case score -/
def totalScore (c : Concept) (lower : String) : Double :=
  (((Scoring.decimal 5 (-1)).mul (Scoring.keywordScore lower c.keywords)).add
    ((Scoring.decimal 3 (-1)).mul (Scoring.conceptScore lower c.concepts))).add
    ((Scoring.decimal 2 (-1)).mul (Scoring.useCaseScore lower c.useCases))

/-- a concept as a candidate for a text in small letters, if it has a score at all -/
def candidate? (lower : String) (c : Concept) : Option Candidate :=
  let total := totalScore c lower
  if total.le Double.zero then none
  else
    let matched := c.keywords.filter (contains lower)
    let score := " (score " ++ Decimal.oneTenth total ++ ")"
    let reasoning :=
      if matched.isEmpty then "Conceptual match based on use case similarity" ++ score
      else "Matched keywords: " ++ joinWith ", " matched ++ score
    some ⟨c.type, total, reasoning⟩

/-- the candidates for a text, best first, equal scores in the order of the concepts -/
def candidates (text : String) : List Candidate :=
  (Concept.all.filterMap (candidate? (lower text))).mergeSort fun a b => b.score.le a.score

/-- a score from 0 to 1 with four decimal places -/
def clamp (x : Double) : Double :=
  Decimal.roundTo 4 (Double.max Double.zero (Double.min (Double.ofNat 1) x))

/-! ## Tiers -/

def decided (rule text nodeType : String) (detail : List (String × Value)) : Trace :=
  [Event.of "resolver" rule ([("text", .text text), ("node_type", .text nodeType)] ++ detail)]

/-- the best candidate, if its score reaches the least confidence -/
def semantic? (minConfidence : Numeric) (text : String) (found : List Candidate) : Option (Resolution × Trace) :=
  match found with
  | [] => none
  | best :: others =>
    let confidence := clamp (best.score.divNat 100)
    if minConfidence.le (.double confidence) then
      some (⟨best.type, .double confidence, best.reasoning, (others.take 3).map (·.type), .semantic⟩,
        decided "semantic" text best.type [("confidence", .float confidence)])
    else none

/-- the best entry of the catalog, if any fits -/
def catalog? (text : String) (alternatives : List String) : Option (Resolution × Trace) :=
  match Catalog.bestEntry text with
  | (none, _) => none
  | (some e, score) =>
    let reasoning :=
      "Catalog match on '" ++ e.display ++ "' (" ++ e.category.word ++ ", score " ++ toString score ++ ")"
    some (⟨e.type, .double catalogConfidence, reasoning, alternatives, .catalog⟩,
      decided "catalog" text e.type [("score", (score : Int))])

/-- the type of the first phrase that the text holds -/
def override? (text : String) (alternatives : List String) : Option (Resolution × Trace) :=
  (overrides.find? fun o => containsAll (lower text) o.1).map fun (phrases, nodeType) =>
    (⟨nodeType, .double overrideConfidence, "Override on phrase " ++ quoted (joinWith " + " phrases), alternatives,
      .override⟩,
      decided "override" text nodeType [])

/-- the type for everything else -/
def fallback (defaultType text reasoning : String) (alternatives : List String) : Resolution × Trace :=
  (⟨defaultType, .double defaultConfidence, reasoning, alternatives, .default⟩,
    decided "default" text defaultType [("confidence", .float defaultConfidence)])

/-- the node type for a text -/
def resolve (minConfidence : Numeric) (defaultType : String) : Resolver := fun text =>
  if isBlankText text then fallback defaultType text "Empty description, using generic processing node" []
  else
    let found := candidates text
    let best := (found.take 3).map (·.type)
    match semantic? minConfidence text found with
    | some r => r
    | none =>
      match catalog? text best with
      | some r => r
      | none =>
        match override? text best with
        | some r => r
        | none => fallback defaultType text "No confident match, using generic processing node" best

/-- the resolver that is used unless told otherwise -/
def standard : Resolver := resolve (.double Resolution.doubtful) defaultNodeType

end Resolver

end WorkflowGraph
