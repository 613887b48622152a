import WorkflowGraph.Command.Options
/-
The commands and their options. A command line that fits no command, leaves out an option that a command needs, or holds
a word too many asks for nothing.
-/
namespace WorkflowGraph

/-- a document is built from an input and assessed -/
structure BuildRequest where
  input : String
  out : Option String
  report : Option String
  provider : Option String
  config : Option String
  repairing : Bool
  verbose : Bool

/-- a document is repaired and written -/
structure RepairRequest where
  input : String
  out : String
  config : Option String

/-- documents are built from all inputs that a pattern finds, and a table about them is written -/
structure BenchRequest where
  pattern : String
  out : String
  config : Option String
  repairing : Bool
  details : Bool

/-- what a command line asks for -/
inductive Command where
  | build (request : BuildRequest)
  | validate (input : String) (config : Option String)
  | repair (request : RepairRequest)
  | checkPrompt (input : String)
  | bench (request : BenchRequest)
  | help

namespace Command

def inputOption : OptionSpec := ⟨"--input", some 'i', true⟩

def outOption : OptionSpec := ⟨"--out", some 'o', true⟩

def configOption : OptionSpec := ⟨"--config", none, true⟩

def verboseOption : OptionSpec := ⟨"--verbose", some 'v', false⟩

def noRepairOption : OptionSpec := ⟨"--no-repair", none, false⟩

def helpOption : OptionSpec := ⟨"--help", none, false⟩

/-- a command by its name: its options, and what they ask for if none is missing -/
structure Form where
  name : String
  options : List OptionSpec
  request : Settings → Option Command

def buildForm : Form where
  name := "build"
  options := [inputOption, outOption, noRepairOption, ⟨"--provider", none, true⟩, configOption, ⟨"--report", none, true⟩,
    verboseOption]
  request s := (s.value? "--input").map fun input => .build ⟨input, s.value? "--out", s.value? "--report",
    s.value? "--provider", s.value? "--config", !s.isSet "--no-repair", s.isSet "--verbose"⟩

def validateForm : Form where
  name := "validate"
  options := [inputOption, configOption, verboseOption]
  request s := (s.value? "--input").map fun input => .validate input (s.value? "--config")

def repairForm : Form where
  name := "repair"
  options := [inputOption, outOption, configOption, verboseOption]
  request s := do return .repair ⟨← s.value? "--input", ← s.value? "--out", s.value? "--config"⟩

def checkForm : Form where
  name := "check-prompt"
  options := [inputOption]
  request s := (s.value? "--input").map .checkPrompt

def defaultPattern : String := "bench/scenarios/*/input.json"

def defaultTable : String := "experiments/results/build_report.csv"

def benchForm : Form where
  name := "bench"
  options := [⟨"--glob", none, true⟩, ⟨"--out", none, true⟩, configOption, noRepairOption, ⟨"--dump-details", none, false⟩]
  request s := some (.bench ⟨(s.value? "--glob").getD defaultPattern, (s.value? "--out").getD defaultTable,
    s.value? "--config", !s.isSet "--no-repair", s.isSet "--dump-details"⟩)

def forms : List Form := [buildForm, validateForm, repairForm, checkForm, benchForm]

/-- what the words after the name of a command ask for -/
def Form.read (f : Form) (words : List String) : Option Command := do
  let s ← OptionSpec.settings (helpOption :: f.options) words
  if s.isSet "--help" then return .help
  f.request s

/-- what a command line asks for -/
def ofWords : List String → Option Command
  | "--help" :: _ => some .help
  | "--" :: name :: words => (forms.find? fun f => f.name == name).bind (·.read words)
  | name :: words => (forms.find? fun f => f.name == name).bind (·.read words)
  | [] => none

/-- how the commands are called -/
def usage : List String :=
  "Usage: COMMAND [OPTIONS]" :: forms.map fun f =>
    "  " ++ " ".intercalate (f.name :: f.options.map fun o => if o.takesValue then o.name ++ " TEXT" else o.name)

end Command

end WorkflowGraph
