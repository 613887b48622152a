import Std.Time
import WorkflowGraph.Command.Run
/-
The program: a command line carried out on the files of the machine, with random identifiers and the time of day.
-/
namespace WorkflowGraph

namespace Program

/-- what keeps an operation on a path from being carried out -/
def faultAt (p : Path) : IO.Error → FileFault
  | .alreadyExists _ _ _ => .alreadyThere p.toText
  | .inappropriateType _ _ _ => .notFolder p.toText
  | _ => .notFound p.toText

/-- an operation on a path -/
def attemptAt {α : Type} (p : Path) (operation : IO α) : IO (Except FileFault α) := do
  try
    return .ok (← operation)
  catch e =>
    return .error (faultAt p e)

/-- what is at a path -/
def kindAt (p : Path) : IO (Option FileKind) := do
  try
    let place ← IO.FS.realPath p.toText
    if ← place.isDir then return some .folder
    return if ← place.pathExists then some .file else none
  catch _ =>
    return none

instance : FileAccess IO where
  kindOf := kindAt
  contents p := do
    if (← kindAt p) = some .folder then return .error (.isFolder p.toText)
    attemptAt p (IO.FS.readFile p.toText)
  entries p := do
    try
      let place ← IO.FS.realPath p.toText
      return (← place.readDir).toList.map (·.fileName)
    catch _ =>
      return []
  makeFolder p := attemptAt p (IO.FS.createDir p.toText)
  put p text := do
    if (← kindAt p) = some .folder then return .error (.isFolder p.toText)
    attemptAt p (IO.FS.writeFile p.toText text)
  move source target := do
    if (← kindAt target) = some .folder then return .error (.isFolder target.toText)
    attemptAt source (IO.FS.rename source.toText target.toText)

/-- random sources of identifiers; the marks of a random unique identifier are set in its digits -/
def randomSources : IO Identifiers := do
  let bytes := (← IO.getRandomBytes 48).toList.map UInt8.toNat
  let number (part : List Nat) : Nat := part.foldl (fun n b => 256 * n + b) 0
  let seed := UInt64.ofNat (number (bytes.take 8))
  let high := number ((bytes.drop 8).take 8)
  let low := number ((bytes.drop 16).take 8)
  let marked := (high / 0x10000 * 0x10000 + 0x4000 + high % 0x1000) * 0x10000000000000000 +
    (0x8000000000000000 + low % 0x4000000000000000)
  let now := (← Std.Time.Timestamp.now).toMillisecondsSinceUnixEpoch.val
  return ⟨fun i => (mixHash seed (hash i)).toNat, 0, String.ofList (Text.hexDigits 64 (number (bytes.drop 16))),
    Decimal.toDouble false now.toNat (-3), marked⟩

/-- the variables that settings are read from -/
def environment : IO Environment := do
  let found ← BuildConfig.fieldNames.mapM fun field => do
    let name := BuildConfig.variableOf field
    return (← IO.getEnv name).map fun v => (name, v)
  return found.filterMap id

end Program

end WorkflowGraph

def main (words : List String) : IO UInt32 := do
  let o ← WorkflowGraph.Command.run (← WorkflowGraph.Program.environment) (← WorkflowGraph.Program.randomSources) words
  IO.print o.stdout
  if let some fault := o.fault then IO.eprintln fault.message
  return o.exitCode.toUInt32
