import WorkflowGraph.Config.Settings
/-
The log of a run: records of a severity from a part of the program. A record is shown when it is severe enough for the
settings, on the terminal in a colour of its own, and is added to a file if one is set.
-/
namespace WorkflowGraph

/-- one thing said, by the logger of a part of the program -/
structure LogRecord where
  part : String
  level : Int
  message : String

/-- a file in a folder that is made when it is not there -/
structure LogFile where
  folder : Path
  name : String

/-- which records are shown, and the file that they are added to -/
structure LogSettings where
  level : Int
  file : Option LogFile

namespace LogRecord

/-- the logger of the whole program -/
def program : String := "flowsmith"

/-- severities by name -/
def levels : List (String × Int) := [
  ("CRITICAL", 50), ("ERROR", 40), ("WARNING", 30), ("WARN", 30), ("INFO", 20), ("DEBUG", 10), ("NOTSET", 0)]

/-- the severity that is used unless another one is set -/
def warning : Int := 30

/-- the name of a severity -/
def levelName (level : Int) : String :=
  match levels.find? fun e => e.2 = level with
  | some (name, _) => name
  | none => "Level " ++ toString level

/-- a name followed by blanks up to a width -/
def pad (width : Nat) (s : String) : String := s ++ String.ofList (List.replicate (width - s.length) ' ')

/-- the record as one line: severity, logger and message -/
def line (r : LogRecord) : String :=
  pad 8 (levelName r.level) ++ "|" ++ program ++ "." ++ r.part ++ "|" ++ r.message

/-- colours of the terminal by the least severity that they are for -/
def colours : List (Int × String) := [(40, "91"), (30, "93"), (20, "92")]

/-- the line in the colour of its severity -/
def colouredLine (r : LogRecord) : String :=
  match colours.find? fun e => e.1 ≤ r.level with
  | some (_, code) => "\x1b[" ++ code ++ "m" ++ r.line ++ "\x1b[0m"
  | none => r.line

end LogRecord

namespace LogSettings

/-- the variable of the severity, and the variable of the folder of the log file -/
def levelVariable : String := "LOG_LEVEL"

def folderVariable : String := BuildConfig.variableStart ++ "LOG_DIR"

def defaultFileName : String := LogRecord.program ++ ".log"

/-- the severity in an environment; a name that is none counts as a warning -/
def levelIn (env : Environment) : Int :=
  match Table.get? levelVariable env with
  | some name => (LogRecord.levels.lookup (Text.upper name)).getD LogRecord.warning
  | none => LogRecord.warning

/-- the settings that are asked for, what is missing taken from the environment -/
def choose (env : Environment) (level : Option Int) (folder : Option String) (fileName : String) : LogSettings :=
  let filled (s : Option String) : Option String := s.filter fun t => !t.isEmpty
  let folder := (filled folder).orElse fun _ => filled (Table.get? folderVariable env)
  ⟨level.getD (levelIn env), folder.map fun f => ⟨Path.ofText f, fileName⟩⟩

/-- whether a record is shown; without a severity of its own the program shows warnings -/
def shows (s : LogSettings) (r : LogRecord) : Bool :=
  decide ((if s.level = 0 then LogRecord.warning else s.level) ≤ r.level)

/-- some lines as a text -/
def textOf (lines : List String) : String := String.join (lines.map (· ++ "\n"))

/-- what is shown of some records -/
def shown (s : LogSettings) (terminal : Bool) (records : List LogRecord) : String :=
  textOf ((records.filter s.shows).map fun r => if terminal then r.colouredLine else r.line)

variable {m : Type → Type} [Monad m] [FileAccess m]

/-- what is shown of some records added to a file -/
def store (s : LogSettings) (records : List LogRecord) : ExceptT Fault m Unit :=
  match s.file with
  | none => return
  | some f => do
    File.makeFolders ⟨f.folder.root, []⟩ f.folder.names
    let p := f.folder.append (Path.ofText f.name)
    let before ← match ← File.kindOf p with
      | none => pure ""
      | some _ => File.attempt (FileAccess.contents p)
    File.attempt (FileAccess.put p (before ++ s.shown false records))

end LogSettings

end WorkflowGraph
