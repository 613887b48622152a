import WorkflowGraph.Command.Basic
import WorkflowGraph.Config.Settings
import WorkflowGraph.Csv
import WorkflowGraph.Delivery
import WorkflowGraph.File.Glob
/-
What the commands do. A command prints lines, reads and writes files, and ends with an exit code: zero when it is done,
one when nothing can be built from its input, two when it is called wrongly or its configuration is wrong. Any other
fault ends it with one and is passed on; what it printed and wrote before that stays.
-/
namespace WorkflowGraph

/-- how a command ended -/
structure Outcome where
  exitCode : Nat
  stdout : String
  fault : Option Fault

namespace Command

/-- why a command ends early -/
inductive Stop where
  | exit (code : Nat)
  | failed (fault : Fault)

/-- steps of a command; the state is what was printed -/
abbrev Action (m : Type → Type) := ExceptT Stop (StateT String m)

variable {m : Type → Type} [Monad m] [FileAccess m]

def print (line : String) : Action m Unit := modify (· ++ line ++ "\n")

/-- a result without effects; a fault ends the command -/
def ensure {α : Type} : Except Fault α → Action m α
  | .ok a => return a
  | .error fault => throw (.failed fault)

/-- work on files; a fault ends the command -/
def onFiles {α : Type} (work : ExceptT Fault m α) : Action m α := do
  ensure (← (StateT.lift work.run : StateT String m (Except Fault α)))

/-- a result; a fault that can be explained is printed and ends the command with a code -/
def explain {α : Type} (code : Nat) : Except Fault α → Action m α
  | .ok a => return a
  | .error fault =>
    match fault.explanation? with
    | some message => do
      print ("[error] " ++ message)
      throw (.exit code)
    | none => throw (.failed fault)

/-! ## Inputs -/

/-- the path of an input, which has to be there; a file has no slash behind it -/
def inputPath (text : String) : Action m Path := do
  let p := Path.ofText text
  let found ← onFiles (File.kindOf p)
  let isThere := !text.isEmpty && match found with
    | some .folder => true
    | some .file => text.toList.getLast? != some '/'
    | none => false
  if isThere then return p else throw (.exit 2)

/-- the configuration; a wrong one ends the command -/
def configure (env : Environment) (file : Option String) : Action m BuildConfig := do
  let found ← (StateT.lift (BuildConfig.load env (file.map fun f => (Path.ofText f).toText)).run :
    StateT String m (Except Fault BuildConfig))
  explain 2 found

/-! ## Output -/

def printIssues (r : Report) : Action m Unit := do
  if !r.issues.isEmpty then
    print "Detected issues:"
    for issue in r.issues do
      print ("- [" ++ issue.category.word ++ "] " ++ issue.message)

def boolText (b : Bool) : String := (Value.bool b).toText

/-- the number of nodes of a document -/
def nodeCount (document : Value) : Nat :=
  (((document.object?.map (Value.field "nodes")).bind Value.list?).getD []).length

def writeDocument (p : Path) (v : Value) : Action m Unit := onFiles (File.writeJson p File.documentIndent v)

def objectOf (fields : List (String × Value)) : Value := .object (fields.map fun (name, v) => (.text name, v))

/-! ## Commands -/

/-- a document from a value, by the named post-processor or else that of the configuration -/
def deliver (cfg : BuildConfig) (provider : Option String) (repairing : Bool) (sources : Identifiers) (raw : Value) :
    Except Fault Delivery := do
  let finish ← PostProcessor.chosen cfg provider
  Delivery.make cfg finish repairing sources (Input.ofValue raw)

/-- what the assessment says about values that are doubtful or missing -/
def printDetails (a : Assessment) : Action m Unit := do
  for doubt in a.ambiguities do
    print ("[debug] ambiguous: " ++ doubt.node.toText ++ " -> " ++ doubt.nodeType.toText ++ " (" ++
      doubt.confidence.toText ++ ")")
  for (node, needed) in a.needed do
    print ("[debug] needs value: " ++ node.toText ++ "." ++ needed.parameter ++ " (" ++ needed.description ++ ")")

def runBuild (env : Environment) (sources : Identifiers) (request : BuildRequest) : Action m Unit := do
  let input ← inputPath request.input
  let cfg ← configure env request.config
  let raw ← onFiles (File.loadInput input)
  let d ← explain 1 (deliver cfg request.provider request.repairing sources raw)
  let a := d.assessment
  print ("Nodes:   " ++ toString (nodeCount d.document))
  print ("Score:   " ++ toString a.report.score)
  print ("Valid:   " ++ boolText a.report.isValid)
  print ("Repairs: " ++ toString a.repairs)
  if let some out := request.out then
    let p := Path.ofText out
    writeDocument p d.document
    print ("[ok] wrote workflow to " ++ p.toText)
  if let some report := request.report then
    let p := Path.ofText report
    writeDocument p (objectOf
      [("input", input.toText), ("validation", objectOf a.toFields), ("trace", Trace.toValue d.trace)])
    print ("[ok] wrote report to " ++ p.toText)
  printIssues a.report
  if request.verbose then printDetails a

def runValidate (env : Environment) (input : String) (config : Option String) : Action m Unit := do
  let input ← inputPath input
  let cfg ← configure env config
  let r ← ensure (WorkflowGraph.validate cfg (← onFiles (File.readJson input)))
  print ("Score: " ++ toString r.score)
  print ("Valid: " ++ boolText r.isValid)
  printIssues r

def runRepair (env : Environment) (request : RepairRequest) : Action m Unit := do
  let input ← inputPath request.input
  let cfg ← configure env request.config
  let document ← onFiles (File.readJson input)
  let before ← ensure (WorkflowGraph.validate cfg document)
  let repaired ← ensure (WorkflowGraph.repair cfg document)
  let after ← ensure (WorkflowGraph.validate cfg repaired.document)
  let out := Path.ofText request.out
  writeDocument out repaired.document
  print ("Score:   " ++ toString before.score ++ " -> " ++ toString after.score)
  print ("Repairs: " ++ toString repaired.fixes)
  print ("[ok] wrote " ++ out.toText)
  printIssues after

def runCheckPrompt (input : String) : Action m Unit := do
  let input ← inputPath input
  let text ← onFiles (File.readText input)
  let r := Prompt.report (Prompt.bound Prompt.defaultMaxChars text.toList)
  print ("Single workflow: " ++ boolText r.isValid)
  print ("Estimated count: " ++ toString r.count)
  for issue in r.issues do
    print ("- " ++ issue)

/-- the row about an input that nothing can be built from -/
def skippedRow (id message : String) : Csv.Row := [("id", .text id), ("error", .text message)]

/-- the row about a document -/
def documentRow (id : String) (d : Delivery) : Csv.Row :=
  let a := d.assessment
  [("id", .text id), ("nodes", .int (nodeCount d.document)), ("score", .int a.report.score),
    ("valid", .bool a.report.isValid), ("repairs", .int a.repairs), ("errors", .int a.report.errors.length),
    ("warnings", .int a.report.warnings.length), ("ambiguities", .int a.ambiguities.length), ("error", .text "")]

/-- the file beside an input that details are written to -/
def detailsName : String := "flowsmith_detail.json"

/-- one input of a table: its row, and the sources of identifiers after it -/
def runCase (cfg : BuildConfig) (request : BenchRequest) (sources : Identifiers) (p : Path) :
    Action m (Csv.Row × Identifiers) := do
  let raw ← onFiles (File.loadInput p)
  let id := p.parent.name
  match deliver cfg none request.repairing sources raw with
  | .ok d =>
    if request.details then
      writeDocument (p.parent.child detailsName)
        (objectOf [("document", d.document), ("validation", objectOf d.assessment.toFields)])
    return (documentRow id d, d.sources)
  | .error fault =>
    match fault.explanation? with
    | some message =>
      print ("[skip] " ++ p.toText ++ ": " ++ message)
      return (skippedRow id message, sources)
    | none => throw (.failed fault)

def runBench (env : Environment) (sources : Identifiers) (request : BenchRequest) : Action m Unit := do
  let cfg ← configure env request.config
  let inputs ← onFiles (Glob.expand request.pattern)
  let (rows, _) ← inputs.foldlM
    (fun (rows, sources) input => do
      let (row, sources) ← runCase cfg request sources (Path.ofText input)
      return (rows ++ [row], sources)) (([], sources) : List Csv.Row × Identifiers)
  let out := Path.ofText request.out
  onFiles (do
    File.ensureParent out
    File.attempt (FileAccess.put out (Csv.render rows)))
  print ("[ok] wrote " ++ out.toText)

/-- the steps of a command -/
def action (env : Environment) (sources : Identifiers) : Command → Action m Unit
  | .build request => runBuild env sources request
  | .validate input config => runValidate env input config
  | .repair request => runRepair env request
  | .checkPrompt input => runCheckPrompt input
  | .bench request => runBench env sources request
  | .help => usage.forM print

/-- how steps end -/
def outcome (result : Except Stop Unit) (printed : String) : Outcome :=
  match result with
  | .ok () => ⟨0, printed, none⟩
  | .error (.exit code) => ⟨code, printed, none⟩
  | .error (.failed fault) => ⟨1, printed, some fault⟩

/-- a command line carried out -/
def run (env : Environment) (sources : Identifiers) (words : List String) : m Outcome :=
  match ofWords words with
  | none => return ⟨2, "", none⟩
  | some command => do
    let (result, printed) ← (action env sources command).run.run ""
    return outcome result printed

end Command

end WorkflowGraph
