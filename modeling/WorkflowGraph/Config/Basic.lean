import WorkflowGraph.Number.Numeric
import WorkflowGraph.Resolver.Basic
/-
The configuration of a build: the bound on the input, the layout, the distances by which nodes count as one row, and
how node types are chosen. Settings come from mappings of field names to values; each value is read as the type of its
field, and a setting that cannot be read, or that no field has, is a configuration fault.
-/
namespace WorkflowGraph

structure BuildConfig where
  /-- how many characters of a text are read -/
  maxInputChars : Int
  startX : Int
  startY : Int
  spacingX : Int
  siblingSpacing : Int
  branchGap : Int
  /-- how far apart two nodes of one row may be vertically -/
  rowTolerance : Int
  /-- how far right of a node the next one of its row is at least -/
  rowMinDx : Int
  minConfidence : Double
  defaultNodeType : String
  postProcessor : String
  deriving DecidableEq

namespace BuildConfig

/-- the configuration that is used unless told otherwise -/
def standard : BuildConfig where
  maxInputChars := 100000
  startX := 250
  startY := 300
  spacingX := 200
  siblingSpacing := 200
  branchGap := 400
  rowTolerance := 150
  rowMinDx := 50
  minConfidence := Resolution.doubtful
  defaultNodeType := Resolver.defaultNodeType
  postProcessor := "identity"

/-- the resolver that a configuration asks for -/
def resolver (c : BuildConfig) : Resolver := Resolver.resolve (.double c.minConfidence) c.defaultNodeType

/-- the names of the fields in mappings -/
def fieldNames : List String := [
  "max_input_chars", "start_x", "start_y", "spacing_x", "sibling_spacing", "branch_gap", "row_tolerance", "row_min_dx",
  "min_confidence", "default_node_type", "post_processor"]

/-- the configuration as an object -/
def toFields (c : BuildConfig) : Fields :=
  [("max_input_chars", .int c.maxInputChars), ("start_x", .int c.startX), ("start_y", .int c.startY),
    ("spacing_x", .int c.spacingX), ("sibling_spacing", .int c.siblingSpacing), ("branch_gap", .int c.branchGap),
    ("row_tolerance", .int c.rowTolerance), ("row_min_dx", .int c.rowMinDx),
    ("min_confidence", .float c.minConfidence), ("default_node_type", .text c.defaultNodeType),
    ("post_processor", .text c.postProcessor)].map fun ((name, v) : String × Value) => (.text name, v)

/-! ## Settings -/

/-- the result of reading a setting; numbers out of range are no configuration faults of their own -/
def readSetting {α : Type} (name : String) (raw : Value) : Except CoercionFault α → Except Fault α
  | .ok v => .ok v
  | .error .infinityToWhole => .error .tooLarge
  | .error .wholeTooLarge => .error .tooLarge
  | .error cause => .error (.config (.badValue name raw cause))

/-- a field set to a value; `none` when there is no such field -/
def set? (c : BuildConfig) (name : String) (raw : Value) : Option (Except Fault BuildConfig) :=
  let whole (update : Int → BuildConfig) := some ((readSetting name raw raw.toWhole).map update)
  match name with
  | "max_input_chars" => whole fun i => { c with maxInputChars := i }
  | "start_x" => whole fun i => { c with startX := i }
  | "start_y" => whole fun i => { c with startY := i }
  | "spacing_x" => whole fun i => { c with spacingX := i }
  | "sibling_spacing" => whole fun i => { c with siblingSpacing := i }
  | "branch_gap" => whole fun i => { c with branchGap := i }
  | "row_tolerance" => whole fun i => { c with rowTolerance := i }
  | "row_min_dx" => whole fun i => { c with rowMinDx := i }
  | "min_confidence" => some ((readSetting name raw raw.toDouble).map fun x => { c with minConfidence := x })
  | "default_node_type" => some (.ok { c with defaultNodeType := raw.toText })
  | "post_processor" => some (.ok { c with postProcessor := raw.toText })
  | _ => none

/-- one setting of a mapping -/
def apply (c : BuildConfig) (setting : Key × Value) : Except Fault BuildConfig :=
  let read :=
    match setting.1 with
    | .text name => c.set? name setting.2
    | _ => none
  read.getD (.error (.config (.unknownKey setting.1)))

/-- a mapping with the fields of its layout section beside its own -/
def flatten (mapping : Fields) : Fields :=
  mapping.foldl
    (fun flat (key, v) =>
      match decide (key = .text "layout"), v with
      | true, .object layout => Table.putAll flat layout
      | _, v => Table.put key v flat) []

/-- a configuration with the settings of a mapping -/
def ofMapping (base : BuildConfig) (mapping : Fields) : Except Fault BuildConfig :=
  (flatten mapping).foldlM apply base

/-- the configuration as an object with fields replaced as they are -/
def withOverrides (c : BuildConfig) (overrides : Fields) : Except Fault Fields :=
  if overrides.all fun (key, _) => Table.has key c.toFields then .ok (Table.putAll c.toFields overrides)
  else .error .wrongKind

end BuildConfig

end WorkflowGraph
