import WorkflowGraph.Fault
import WorkflowGraph.File.Path
import WorkflowGraph.Value.Parser
import WorkflowGraph.Value.Printer
import WorkflowGraph.Yaml.Document
/-
Files as the library reads and writes them. What a machine offers, or a model of one, is a handful of operations on
single paths; on top of them stand texts with line feeds for line ends, values in the format that a file's suffix tells,
and writing by way of a scratch file, so that a file is never half written.
-/
namespace WorkflowGraph

inductive FileKind where
  | file
  | folder
  deriving DecidableEq

/-- operations on single paths -/
class FileAccess (m : Type → Type) where
  kindOf : Path → m (Option FileKind)
  contents : Path → m (Except FileFault String)
  /-- the names in a folder, none when there is no such folder -/
  entries : Path → m (List String)
  makeFolder : Path → m (Except FileFault Unit)
  put : Path → String → m (Except FileFault Unit)
  move : Path → Path → m (Except FileFault Unit)

namespace File

variable {m : Type → Type} [Monad m] [FileAccess m]

/-- the result of an operation, a failed one being a fault -/
def attempt {α : Type} (operation : m (Except FileFault α)) : ExceptT Fault m α :=
  ExceptT.mk ((Except.mapError Fault.file ·) <$> operation)

def kindOf (p : Path) : ExceptT Fault m (Option FileKind) := ExceptT.lift (FileAccess.kindOf p)

/-! ## Reading -/

/-- the text of a file, with line feeds for line ends -/
def readText (p : Path) : ExceptT Fault m String := do
  return String.ofList (Text.unifyLineEnds (← attempt (FileAccess.contents p)).toList)

/-- the value that a file holds as JSON -/
def readJson (p : Path) : ExceptT Fault m Value := do
  match Json.parse? (← readText p) with
  | some v => return v
  | none => throw (.file .notJson)

/-- the value that a file holds as YAML -/
def readYaml (p : Path) : ExceptT Fault m Value := do
  match Yaml.parse (← readText p) with
  | .ok v => return v
  | .error cause => throw (.file (.notYaml cause))

/-- the value of a file in the format that its suffix tells -/
def load (p : Path) : ExceptT Fault m Value :=
  match p.format with
  | ".json" => readJson p
  | ".yaml" => readYaml p
  | ".yml" => readYaml p
  | ".txt" => Value.text <$> readText p
  | ".md" => Value.text <$> readText p
  | other => throw (.file (.unsupportedExtension other p.toText))

/-- the input of a build in a file: JSON by its suffix, and a text otherwise -/
def loadInput (p : Path) : ExceptT Fault m Value :=
  if p.format = ".json" then readJson p else Value.text <$> readText p

/-! ## Writing -/

/-- folders for some names below a path, as far as they are not there -/
def makeFolders (done : Path) : List String → ExceptT Fault m Unit
  | [] => return
  | name :: rest => do
    let p := done.child name
    match ← kindOf p with
    | some .folder => makeFolders p rest
    | some .file => throw (.file (if rest.isEmpty then .alreadyThere p.toText else .notFolder p.toText))
    | none =>
      attempt (FileAccess.makeFolder p)
      makeFolders p rest

/-- the folder that a file is in, made if it is not there -/
def ensureParent (p : Path) : ExceptT Fault m Unit := makeFolders ⟨p.root, []⟩ p.parent.names

/-- a text written to a file -/
def writeText (p : Path) (text : String) : ExceptT Fault m Unit := do
  ensureParent p
  if p.name.isEmpty then throw (.file (.noName p.toText))
  attempt (FileAccess.put p.scratch text)
  attempt (FileAccess.move p.scratch p)

/-- a value written to a file as JSON -/
def writeJson (p : Path) (indent : Json.Indent) (v : Value) : ExceptT Fault m Unit :=
  writeText p (Json.render indent v)

/-- the indentation of written documents -/
def documentIndent : Json.Indent := some "  "

end File

end WorkflowGraph
