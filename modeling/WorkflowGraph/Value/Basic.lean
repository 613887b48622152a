import WorkflowGraph.Number.Double
import WorkflowGraph.Table
/-
Values: what documents, drafts and configuration files are made of. An object keeps the order of its fields. Its keys
are texts in every file, but a node whose name is another scalar may become a source of connections, so a key is any
scalar. A truth value, a whole number and a double that stand for the same number are equal, as keys and as values;
objects are equal when they have the same fields in any order.
-/
namespace WorkflowGraph

/-! ## Keys -/

/-- a scalar that can name a field -/
inductive Key where
  | text (s : String)
  | null
  | bool (b : Bool)
  | int (i : Int)
  | float (x : Double)
  deriving DecidableEq

namespace Key

/-- the form that all keys equal to this one share -/
def canonical : Key → Key
  | .bool b => .int (if b then 1 else 0)
  | .float x =>
    match x.whole? with
    | some i => .int i
    | none => .float x
  | k => k

instance : BEq Key := ⟨fun a b => decide (a.canonical = b.canonical)⟩

theorem beq_iff (a b : Key) : (a == b) = true ↔ a.canonical = b.canonical := by
  simp [BEq.beq]

instance : EquivBEq Key where
  rfl := by simp [beq_iff]
  symm := by simp only [beq_iff]; exact Eq.symm
  trans := by simp only [beq_iff]; exact Eq.trans

instance : Coe String Key := ⟨.text⟩

end Key

/-! ## Values -/

/-- a value of a document -/
inductive Value where
  | null
  | bool (b : Bool)
  | int (i : Int)
  | float (x : Double)
  | text (s : String)
  | list (items : List Value)
  | object (fields : List (Key × Value))

/-- the fields of an object, in order -/
abbrev Fields := Table Key Value

/-- what a value is -/
inductive Kind where
  | null
  | bool
  | int
  | float
  | text
  | list
  | object
  deriving DecidableEq

namespace Value

instance : Inhabited Value := ⟨.null⟩

instance : Coe String Value := ⟨.text⟩

instance : Coe Int Value := ⟨.int⟩

instance : Coe Bool Value := ⟨.bool⟩

def kind : Value → Kind
  | .null => .null
  | .bool _ => .bool
  | .int _ => .int
  | .float _ => .float
  | .text _ => .text
  | .list _ => .list
  | .object _ => .object

/-- the key that a scalar is; lists and objects are none -/
def toKey? : Value → Option Key
  | .null => some .null
  | .bool b => some (.bool b)
  | .int i => some (.int i)
  | .float x => some (.float x)
  | .text s => some (.text s)
  | .list _ => none
  | .object _ => none

def ofKey : Key → Value
  | .text s => .text s
  | .null => .null
  | .bool b => .bool b
  | .int i => .int i
  | .float x => .float x

/-- whole numbers and doubles; truth values are no numbers -/
def isNumber : Value → Bool
  | .int _ => true
  | .float _ => true
  | _ => false

def text? : Value → Option String
  | .text s => some s
  | _ => none

def list? : Value → Option (List Value)
  | .list items => some items
  | _ => none

def object? : Value → Option Fields
  | .object fields => some fields
  | _ => none

def isText (v : Value) : Bool := v.text?.isSome

def isList (v : Value) : Bool := v.list?.isSome

def isObject (v : Value) : Bool := v.object?.isSome

/-- neither null, nor false, nor zero, nor empty -/
def isFilled : Value → Bool
  | .null => false
  | .bool b => b
  | .int i => i != 0
  | .float x => x.units? != some 0
  | .text s => !s.isEmpty
  | .list items => !items.isEmpty
  | .object fields => !fields.isEmpty

/-- the value of a field, null when there is none -/
def field (name : String) (fields : Fields) : Value := (Table.get? (.text name) fields).getD .null

/-! ## Equality -/

mutual

/-- equality of values, numbers by what they stand for and objects whatever the order of their fields -/
def same : Value → Value → Bool
  | .list xs, .list ys => sameItems xs ys
  | .object fs, .object gs => fs.length == gs.length && subFields fs gs
  | .list _, _ => false
  | .object _, _ => false
  | .null, w => w.toKey?.any (Key.null == ·)
  | .bool b, w => w.toKey?.any (Key.bool b == ·)
  | .int i, w => w.toKey?.any (Key.int i == ·)
  | .float x, w => w.toKey?.any (Key.float x == ·)
  | .text s, w => w.toKey?.any (Key.text s == ·)

def sameItems : List Value → List Value → Bool
  | [], [] => true
  | v :: vs, w :: ws => same v w && sameItems vs ws
  | _, _ => false

/-- every field of the first has an equal one in the second -/
def subFields : List (Key × Value) → List (Key × Value) → Bool
  | [], _ => true
  | (k, v) :: fs, gs =>
    (match Table.get? k gs with
      | some w => same v w
      | none => false) && subFields fs gs

end

instance : BEq Value := ⟨same⟩

end Value

end WorkflowGraph
