import WorkflowGraph.Config.Basic
import WorkflowGraph.File.Access
/-
Where a configuration comes from: the standard one, then a file of settings if one is named, then the variables of the
environment. Whatever keeps the file from being read is a fault of the configuration.
-/
namespace WorkflowGraph

/-- the variables of an environment -/
abbrev Environment := Table String String

namespace BuildConfig

/-- the beginning of the names of variables with settings -/
def variableStart : String := "FLOWSMITH_"

/-- the variable that sets a field -/
def variableOf (field : String) : String := variableStart ++ Text.upper field

/-- the settings in an environment -/
def settingsIn (env : Environment) : Fields :=
  fieldNames.filterMap fun field => (Table.get? (variableOf field) env).map fun v => (.text field, .text v)

/-- the settings that a value of a file gives; an empty file gives none -/
def settingsOf (path : String) : Value → Except Fault Fields
  | .null => .ok []
  | .object fields => .ok fields
  | _ => .error (.config (.notMapping path))

/-- a fault in reading a file of settings -/
def unreadable (path : String) : Fault → Fault
  | .file cause => .config (.unreadable path cause)
  | fault => fault

variable {m : Type → Type} [Monad m] [FileAccess m]

/-- the configuration with the settings of a file -/
def ofFile (path : String) : ExceptT Fault m BuildConfig := do
  let v ← ExceptT.adapt (unreadable path) (File.load (Path.ofText path))
  ExceptT.mk (pure (do ofMapping .standard (← settingsOf path v)))

/-- the configuration with the settings of a file, if one is named, and of the environment -/
def load (env : Environment) (path : Option String) : ExceptT Fault m BuildConfig := do
  let cfg ← match path with
    | some path => ofFile path
    | none => pure .standard
  ExceptT.mk (pure (ofMapping cfg (settingsIn env)))

end BuildConfig

end WorkflowGraph
