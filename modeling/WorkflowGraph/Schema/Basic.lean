import WorkflowGraph.Fault
/-
Schemas: what shape a value has to have. A schema is a list of rules that are checked in order; a rule about values of
another type is kept by every value it is not about. `violations` lists everything that is wrong with a value, `worst`
chooses the one that is reported: the one nearest to the top, among those the greatest by path, and among those one
that does not merely concern a value of the right type.
-/
namespace WorkflowGraph

/-- the types that schemas tell apart; a double without a fraction is an integer too -/
inductive SchemaType where
  | string
  | number
  | integer
  | boolean
  | array
  | object
  deriving DecidableEq

namespace SchemaType

def word : SchemaType → String
  | .string => "string"
  | .number => "number"
  | .integer => "integer"
  | .boolean => "boolean"
  | .array => "array"
  | .object => "object"

/-- whether a value is of a type -/
def admits : SchemaType → Value → Bool
  | .string, .text _ => true
  | .number, .int _ => true
  | .number, .float _ => true
  | .integer, .int _ => true
  | .integer, .float x => x.whole?.isSome
  | .boolean, .bool _ => true
  | .array, .list _ => true
  | .object, .object _ => true
  | _, _ => false

end SchemaType

mutual

/-- rules that a value has to keep, in the order in which they are checked -/
inductive Schema where
  | rules (rules : List SchemaRule)

inductive SchemaRule where
  /-- the value is of one of the types -/
  | type (types : List SchemaType)
  /-- the object has all of the fields -/
  | required (names : List String)
  /-- each field, as far as it is there, has its shape -/
  | properties (fields : List (String × Schema))
  /-- every item of the list has a shape -/
  | items (shape : Schema)
  /-- every field whose name is a line of text has a shape -/
  | named (shape : Schema)
  /-- every field has a line of text as its name -/
  | onlyNamed
  /-- the text is not empty -/
  | nonEmpty
  /-- the text is a type tag -/
  | typeTag
  /-- the number is not negative -/
  | nonNegative
  /-- the list has at least so many items -/
  | minItems (n : Nat)
  /-- the list has at most so many items -/
  | maxItems (n : Nat)

end

/-! ## Texts -/

/-- a text without one line end at its end -/
def dropFinalLineEnd (cs : List Char) : List Char :=
  if cs.getLast? = some '\n' then cs.dropLast else cs

/-- whether a field's name is a line of text -/
def isLine (s : String) : Bool :=
  let cs := dropFinalLineEnd s.toList
  !cs.isEmpty && cs.all (· != '\n')

/-- characters of a package in a type tag -/
def isPackageChar (c : Char) : Bool := c.isAlphanum || c == '@' || c == '/' || c == '_' || c == '-'

/-- characters of a short type in a type tag -/
def isShortTypeChar (c : Char) : Bool := c.isAlphanum || c == '_' || c == '.' || c == '-'

/-- a package, a point and a short type -/
def isTypeTag (s : String) : Bool :=
  let cs := dropFinalLineEnd s.toList
  match cs.dropWhile isPackageChar with
  | '.' :: short => !(cs.takeWhile isPackageChar).isEmpty && !short.isEmpty && short.all isShortTypeChar
  | _ => false

/-- how the rule on type tags is shown -/
def typeTagPattern : String := "'^[A-Za-z0-9@/_-]+\\\\.[A-Za-z0-9_.-]+$'"

/-! ## Violations -/

/-- one step into a value -/
inductive PathStep where
  | field (name : String)
  | item (index : Nat)
  deriving DecidableEq

def PathStep.text : PathStep → String
  | .field name => name
  | .item index => toString index

/-- something wrong with a value inside another one -/
structure Violation where
  path : List PathStep
  message : String
  /-- whether the schema that was violated names a type and the value is of that type -/
  rightType : Bool

/-- whether a value is of the type that some rules ask for, if they ask for one -/
def keepsType (v : Value) : List SchemaRule → Bool
  | [] => false
  | .type types :: _ => types.any (·.admits v)
  | _ :: rest => keepsType v rest

/-- the names of fields that are no line of text -/
def strayNames (fields : Fields) : List String :=
  fields.filterMap fun (k, _) =>
    match k with
    | .text s => if isLine s then none else some s
    | _ => none

/-- the message on fields that have no line of text as their name -/
def strayMessage (names : List String) : String :=
  let sorted := names.mergeSort fun a b => decide (a ≤ b)
  ", ".intercalate (sorted.map Text.quoted) ++ (if names.length = 1 then " does" else " do") ++
    " not match any of the regexes: '^.+$'"

/-- the fields whose names are lines of text, with these names -/
def namedFields (fields : Fields) : List (String × Value) :=
  fields.filterMap fun (k, v) =>
    match k with
    | .text s => if isLine s then some (s, v) else none
    | _ => none

/-- what a rule about the value itself finds wrong -/
def SchemaRule.messages (rule : SchemaRule) (v : Value) : List String :=
  let one (wrong : Bool) (message : String) : List String := if wrong then [message] else []
  match rule, v with
  | .type types, v =>
    one (!types.any (·.admits v))
      (v.literal ++ " is not of type " ++ ", ".intercalate (types.map fun t => "'" ++ t.word ++ "'"))
  | .required names, .object fields =>
    (names.filter fun name => !Table.has (.text name) fields).map fun name =>
      Text.quoted name ++ " is a required property"
  | .onlyNamed, .object fields => one (!(strayNames fields).isEmpty) (strayMessage (strayNames fields))
  | .nonEmpty, .text s => one s.isEmpty (v.literal ++ " should be non-empty")
  | .typeTag, .text s => one (!isTypeTag s) (v.literal ++ " does not match " ++ typeTagPattern)
  | .nonNegative, .int i => one (i < 0) (v.literal ++ " is less than the minimum of 0")
  | .nonNegative, .float x => one (x.isNegative && x.units? != some 0) (v.literal ++ " is less than the minimum of 0")
  | .minItems n, .list vs => one (vs.length < n) (v.literal ++ " is too short")
  | .maxItems n, .list vs => one (n < vs.length) (v.literal ++ " is too long")
  | _, _ => []

mutual

/-- everything that a schema finds wrong with a value at a path, in the order of the rules -/
def Schema.violations (path : List PathStep) : Schema → Value → List Violation
  | .rules rules, v => rulesViolations path (keepsType v rules) rules v

def rulesViolations (path : List PathStep) (rightType : Bool) : List SchemaRule → Value → List Violation
  | [], _ => []
  | rule :: rest, v =>
    ((rule.messages v).map fun m => ⟨path, m, rightType⟩) ++ rule.inner path v ++ rulesViolations path rightType rest v

/-- what a rule finds wrong with the parts of a value -/
def SchemaRule.inner (path : List PathStep) : SchemaRule → Value → List Violation
  | .properties shapes, .object fields => propertyViolations path shapes fields
  | .items shape, .list vs =>
    vs.zipIdx.flatMap fun (v, i) => shape.violations (path ++ [.item i]) v
  | .named shape, .object fields =>
    (namedFields fields).flatMap fun (name, v) => shape.violations (path ++ [.field name]) v
  | _, _ => []

def propertyViolations (path : List PathStep) : List (String × Schema) → Fields → List Violation
  | [], _ => []
  | (name, shape) :: rest, fields =>
    (match Table.get? (.text name) fields with
      | some v => shape.violations (path ++ [.field name]) v
      | none => []) ++ propertyViolations path rest fields

end

/-! ## The violation reported -/

/-- the order of steps: names by their characters, indexes by their size -/
def PathStep.lt : PathStep → PathStep → Bool
  | .field a, .field b => a < b
  | .item a, .item b => a < b
  | .item _, .field _ => true
  | .field _, .item _ => false

/-- the order of paths by their first difference, a path before its continuations -/
def pathLt : List PathStep → List PathStep → Bool
  | [], [] => false
  | [], _ :: _ => true
  | _ :: _, [] => false
  | a :: as, b :: bs => if a = b then pathLt as bs else a.lt b

/-- whether a violation is worse than another one -/
def Violation.worse (a b : Violation) : Bool :=
  if a.path.length ≠ b.path.length then a.path.length < b.path.length
  else if a.path ≠ b.path then pathLt b.path a.path
  else b.rightType && !a.rightType

/-- the worst of some violations, of several equally bad ones the first -/
def worst : List Violation → Option Violation
  | [] => none
  | v :: rest => some (rest.foldl (fun best w => if w.worse best then w else best) v)

/-- the path and the message of a violation -/
def Violation.text (v : Violation) : String :=
  let place := if v.path.isEmpty then "<root>" else "/".intercalate (v.path.map PathStep.text)
  "Schema validation error at " ++ place ++ ": " ++ v.message

end WorkflowGraph
