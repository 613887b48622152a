import WorkflowGraph.Text.Blank
import WorkflowGraph.Text.Pattern
import WorkflowGraph.Trace
/-
Prompts: the text of a planner, cut back to its first description.

Planners sometimes append a second, unrelated description to the first one. Each rule knows a sign of that and the
place to cut; the first rule that finds a place decides, and a sentence that closes the first description moves the cut
to its own end. A second use of the text reports how many descriptions it seems to hold.
-/
namespace WorkflowGraph

namespace Prompt

open Text

/-- how many characters of a prompt are read unless told otherwise -/
def defaultMaxChars : Int := 100000

/-- the heading of a warning that often precedes a second description -/
def systemWarning : List Char := "### ⚠️ Otomatik Sistem Uyarısı:".toList

/-! ## Rules -/

/-- where a rule cuts once it matches -/
inductive Cut where
  /-- where its own match starts -/
  | atMatch
  /-- where the following match starts -/
  | atFollower
  /-- at the last blank line before the following match -/
  | beforeFollowerParagraph
  deriving DecidableEq

/-- a sign of a second description -/
structure Rule where
  name : String
  pattern : Pattern
  follower : Option Pattern
  cut : Cut

/-- the offset of the last blank line that ends at `stop` or before -/
def lastBlankLine? (cs : List Char) (stop : Nat) : Option Nat :=
  let tails := occurrences "\n\n".toList (cs.take stop)
  tails.getLast?.map fun tail => (cs.take stop).length - tail.length

/-- the place where a rule cuts, given its own match and that of its follower -/
def Rule.place (r : Rule) (cs : List Char) (m f : Match) : Nat :=
  match r.cut with
  | .atMatch => m.start
  | .atFollower => f.start
  | .beforeFollowerParagraph =>
    match lastBlankLine? cs f.start with
    | some blank => if 0 < blank then blank else f.start
    | none => f.start

/-- the offset at which a rule cuts a text; a cut at the very start would leave nothing and is none -/
def Rule.cutPoint (r : Rule) (cs : List Char) : Option Nat := do
  let m ← r.pattern.first cs
  let point ←
    match r.follower with
    | none => some m.start
    | some follower => (follower.firstFrom m.stop cs).map (r.place cs m)
  if 0 < point then some point else none

def isCapital (c : Char) : Bool := decide ('A' ≤ c ∧ c ≤ 'Z')

def requiredIntegrations : Pattern := .literal "\n\n**Required Integrations:".toList

def branchOne : List Char := "### BRANCH 1:".toList

/-- the heading of a branch, or of a section that starts with a capital letter -/
def sectionHeading : Pattern := fun _ cs =>
  match dropLiteral? "### BRANCH".toList cs with
  | some _ => some 10
  | none =>
    match dropLiteral? "## ".toList cs with
    | some (c :: _) => if isCapital c then some 4 else none
    | _ => none

/-- the signs of a second description, in the order in which they are tried -/
def rules : List Rule := [
  ⟨"system-warning", .literal systemWarning, some requiredIntegrations, .atMatch⟩,
  ⟨"required-integrations-gap",
    (Pattern.lineEnds 3).andThen (.literal "**Required Integrations:**".toList), none, .atMatch⟩,
  ⟨"closing-summary", .literal "This comprehensive plan ensures".toList, some requiredIntegrations, .atFollower⟩,
  ⟨"repeated-branch-one", .literal branchOne, some (.literal branchOne), .beforeFollowerParagraph⟩,
  ⟨"additional-requirements", .literal "## Additional Requirements:".toList,
    some ((Pattern.lineEnds 2).andThen sectionHeading), .atFollower⟩]

/-! ## Closing sentences -/

/-- up to and including the first occurrence of a part on the rest of the line -/
def throughOnLine (part : List Char) : Pattern := fun _ cs =>
  (cut? part (cs.takeWhile (· != '\n'))).map fun (before, _) => before.length + part.length

/-- up to and including the first occurrence of a character -/
def through (c : Char) : Pattern := fun _ cs =>
  (cut? [c] cs).map fun (before, _) => before.length + 1

/-- up to and including the last point on the rest of the line -/
def throughLastPoint : Pattern := fun _ cs =>
  let line := cs.takeWhile (· != '\n')
  let kept := (line.reverse.dropWhile (· != '.')).length
  if kept = 0 then none else some kept

/-- sentences that close a first description -/
def endMarkers : List (String × Pattern) := [
  ("closing-sentence",
    (Pattern.literal "This comprehensive plan ensures".toList).andThen (throughOnLine "workflow.".toList)),
  ("additional-requirements", (Pattern.literal "## Additional Requirements:".toList).andThen (through '.')),
  ("validation-checklist",
    ((Pattern.literal "### Validation Checklist".toList).andThen (through '☑')).andThen throughLastPoint)]

/-- the closing sentence that ends first, and where -/
def endMarkerCut (cs : List Char) : Option (String × Nat) :=
  endMarkers.foldl
    (fun best (name, p) =>
      match p.first cs with
      | none => best
      | some m => if best.all fun b => decide (m.stop < b.2) then some (name, m.stop) else best) none

/-! ## Normalizing -/

/-- a text of at most `maxChars` characters; zero sets no bound, a negative bound leaves out that many at the end -/
def bound (maxChars : Int) (cs : List Char) : List Char :=
  if maxChars ≠ 0 ∧ maxChars < cs.length then takeInt maxChars cs else cs

def boundEvents (maxChars : Int) (cs : List Char) : Trace :=
  if maxChars ≠ 0 ∧ maxChars < cs.length then
    [Event.of "normalizer" "truncated" [("original", (cs.length : Int)), ("kept", maxChars)]]
  else []

/-- the first rule that cuts a text, and where -/
def firstCut (cs : List Char) : Option (Rule × Nat) := rules.findSome? fun r => (r.cutPoint cs).map (r, ·)

/-- the closing sentence before a cut, if any, and the place where the text really ends -/
def settle (cs : List Char) (point : Nat) : Option String × Nat :=
  match endMarkerCut (cs.take point) with
  | some (name, stop) => (some name, stop)
  | none => (none, point)

/-- a text cut back to its first description -/
def cutBack (cs : List Char) : List Char :=
  match firstCut cs with
  | none => cs
  | some (_, point) => trim isBlank (cs.take (settle cs point).2)

def cutEvents (cs : List Char) : Trace :=
  match firstCut cs with
  | none => [Event.of "normalizer" "unchanged" []]
  | some (rule, point) =>
    let (marker, stop) := settle cs point
    [Event.of "normalizer" rule.name [
      ("cut", (stop : Int)), ("end_marker", (marker.map Value.text).getD .null),
      ("removed", .int (cs.length - (cutBack cs).length))]]

/-- the prompt bounded and cut back to its first description -/
def normalize (maxChars : Int) (cs : List Char) : List Char := cutBack (bound maxChars cs)

def normalizeEvents (maxChars : Int) (cs : List Char) : Trace :=
  boundEvents maxChars cs ++ cutEvents (bound maxChars cs)

/-- the text of an input; nothing at all is the empty text -/
def textOf : Value → String
  | .null => ""
  | v => v.toText

/-! ## Counting descriptions -/

/-- whether a line is a title that names a workflow: up to the next number sign it holds that word -/
def isWorkflowTitle (line : List Char) : Bool :=
  match dropLiteral? "## ".toList line with
  | some (c :: rest) => isCapital c && occurs "Workflow".toList (rest.takeWhile (· != '#'))
  | _ => false

/-- how many descriptions a prompt seems to hold, and the signs of more than one -/
structure Report where
  count : Nat
  issues : List String

def Report.isValid (r : Report) : Bool := r.count ≤ 1

/-- a report on a text -/
def report (cs : List Char) : Report :=
  let branchOnes := Text.count branchOne cs
  let titles := (lines cs).countP isWorkflowTitle
  let integrations := Text.count "**Required Integrations:**".toList cs
  let issue (found : Bool) (text : String) : List String := if found then [text] else []
  ⟨max (max branchOnes titles) (integrations / 2),
    issue (1 < branchOnes) ("Multiple \"BRANCH 1\" sections found (" ++ toString branchOnes ++ ")") ++
    issue (1 < titles) ("Multiple workflow titles found (" ++ toString titles ++ ")") ++
    issue (2 < integrations) ("Too many \"Required Integrations\" sections (" ++ toString integrations ++ ")") ++
    issue (occurs systemWarning cs) "Contains system warning that often precedes duplicate workflows"⟩

end Prompt

end WorkflowGraph
