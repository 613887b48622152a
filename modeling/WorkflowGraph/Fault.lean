import WorkflowGraph.Value.Display
/-
Causes for which an operation has no answer. Malformed documents are reported as issues and mended where possible; a
fault is what is left: a value of a kind that an operation cannot work on, a number beyond the doubles, a file that is
not there, a draft that is no workflow, or a wrong configuration.
-/
namespace WorkflowGraph

/-- why nothing can be built from an input -/
inductive StructuralFault where
  | draftNotObject (kind : Kind)
  | draftWithoutNodes
  | noSteps

def StructuralFault.message : StructuralFault → String
  | .draftNotObject kind => "Workflow draft must be a JSON object, got " ++ kind.word
  | .draftWithoutNodes => "Workflow draft has neither 'nodes' nor 'connections'"
  | .noSteps => "No workflow steps could be extracted from the input text"

/-- why a value is no whole number or no double -/
inductive CoercionFault where
  | notWhole (literal : String)
  | notDouble (literal : String)
  | wholeOfKind (kind : Kind)
  | doubleOfKind (kind : Kind)
  | nanToWhole
  | infinityToWhole
  | wholeTooLarge

def CoercionFault.message : CoercionFault → String
  | .notWhole literal => "invalid literal for int() with base 10: " ++ literal
  | .notDouble literal => "could not convert string to float: " ++ literal
  | .wholeOfKind kind =>
    "int() argument must be a string, a bytes-like object or a real number, not '" ++ kind.word ++ "'"
  | .doubleOfKind kind => "float() argument must be a string or a real number, not '" ++ kind.word ++ "'"
  | .nanToWhole => "cannot convert float NaN to integer"
  | .infinityToWhole => "cannot convert float infinity to integer"
  | .wholeTooLarge => "int too large to convert to float"

/-- the step at which the reading of a YAML text fails -/
inductive YamlFault where
  /-- a character that no such text may hold -/
  | character
  /-- a token that cannot be read, or that may not stand where it does -/
  | token
  /-- tokens that form no node -/
  | node
  /-- a reference to a node, or a second document -/
  | reference
  /-- a node that stands for no value -/
  | value
  /-- a number without digits -/
  | number
  deriving DecidableEq

def YamlFault.message : YamlFault → String
  | .character => "special characters are not allowed"
  | .token => "a token cannot be read"
  | .node => "tokens form no node"
  | .reference => "a reference cannot be followed"
  | .value => "a node stands for no value"
  | .number => "a number has no digits"

/-- why a file cannot be read or written -/
inductive FileFault where
  | notFound (path : String)
  | isFolder (path : String)
  | notFolder (path : String)
  | alreadyThere (path : String)
  | unsupportedExtension (suffix path : String)
  | noName (path : String)
  | notJson
  | notYaml (cause : YamlFault)
  deriving DecidableEq

def FileFault.message : FileFault → String
  | .notFound path => "[Errno 2] No such file or directory: " ++ Text.quoted path
  | .alreadyThere path => "[Errno 17] File exists: " ++ Text.quoted path
  | .notFolder path => "[Errno 20] Not a directory: " ++ Text.quoted path
  | .isFolder path => "[Errno 21] Is a directory: " ++ Text.quoted path
  | .unsupportedExtension suffix path => "Unsupported extension: " ++ suffix ++ " for " ++ path
  | .noName path => Text.quoted path ++ " has an empty name"
  | .notJson => "Expecting value"
  | .notYaml cause => cause.message

/-- what is wrong with a configuration -/
inductive ConfigFault where
  | unknownKey (key : Key)
  | badValue (field : String) (value : Value) (cause : CoercionFault)
  | unknownPostProcessor (name : String) (known : List String)
  | unreadable (path : String) (cause : FileFault)
  | notMapping (path : String)

/-- the beginning of the message about a configuration file that cannot be read -/
def ConfigFault.unreadableTitle (path : String) : String := "Cannot read config file " ++ path ++ ": "

def ConfigFault.message : ConfigFault → String
  | .unknownKey key => "Unknown config key '" ++ key.toText ++ "'"
  | .badValue field value cause =>
    "Invalid value for '" ++ field ++ "': " ++ value.literal ++ " (" ++ cause.message ++ ")"
  | .unknownPostProcessor name known =>
    "Unknown post-processor '" ++ name ++ "'. Choose one of: " ++ ", ".intercalate known
  | .unreadable path cause => unreadableTitle path ++ cause.message
  | .notMapping path => "Config file " ++ path ++ " must contain a mapping"

/-- why an operation has no answer -/
inductive Fault where
  /-- a list or an object where a scalar has to name something -/
  | notScalar (kind : Kind)
  /-- a value of a kind that an operation does not work on -/
  | wrongKind
  /-- fields or methods asked of a value that has none -/
  | noFields
  /-- a number beyond the doubles, or no finite number -/
  | tooLarge
  /-- a value outside what an operation accepts -/
  | badValue
  /-- a position outside a list -/
  | noSuchPosition
  /-- a name that is not known -/
  | unknownName
  | file (cause : FileFault)
  | structural (cause : StructuralFault)
  | config (cause : ConfigFault)

namespace Fault

/-- the message about a fault that a user can mend -/
def explanation? : Fault → Option String
  | .structural cause => some cause.message
  | .config cause => some cause.message
  | _ => none

def message : Fault → String
  | .notScalar kind => "unhashable type: '" ++ kind.word ++ "'"
  | .wrongKind => "a value is of the wrong kind"
  | .noFields => "a value has no fields"
  | .tooLarge => "a number is out of range"
  | .badValue => "a value cannot be used"
  | .noSuchPosition => "a position is out of range"
  | .unknownName => "a name is not known"
  | .file cause => cause.message
  | .structural cause => cause.message
  | .config cause => cause.message

end Fault

/-- the key that a value is, as long as it is a scalar -/
def Value.toKey (v : Value) : Except Fault Key :=
  match v.toKey? with
  | some k => .ok k
  | none => .error (.notScalar v.kind)

end WorkflowGraph
