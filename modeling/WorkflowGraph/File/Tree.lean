import WorkflowGraph.File.Access
/-
A model of a folder with files in it: their texts by the names that lead to them. A folder is there as soon as anything
is in it, or when it was made. Paths from a root lead nowhere, and two points at the top stay there.
-/
namespace WorkflowGraph

/-- the files below a folder, and the folders that were made -/
structure FileTree where
  texts : Table (List String) String
  folders : List (List String)

namespace FileTree

def empty : FileTree := ⟨[], []⟩

/-- the tree of some files, each named by the text of its path -/
def ofList (files : List (String × String)) : FileTree :=
  ⟨Table.ofList (files.map fun (name, text) => ((Path.ofText name).names, text)), []⟩

/-- whether a place is above another one -/
def leadsTo (place other : List String) : Bool := place.isPrefixOf other && place.length < other.length

/-- what is at a place -/
def kindAt (t : FileTree) (place : List String) : Option FileKind :=
  if place.isEmpty then some .folder
  else if Table.has place t.texts then some .file
  else if t.folders.any (fun other => other == place || leadsTo place other) || t.texts.any (fun e => leadsTo place e.1)
    then some .folder
  else none

/-- the place that names lead to from another place; everything on the way has to be a folder -/
def follow (t : FileTree) (p : Path) (place : List String) : List String → Except FileFault (List String)
  | [] => .ok place
  | name :: rest =>
    if name = ".." then follow t p place.dropLast rest
    else
      let next := place ++ [name]
      match rest, t.kindAt next with
      | [], _ => .ok next
      | _, some .folder => follow t p next rest
      | _, some .file => .error (.notFolder p.toText)
      | _, none => .error (.notFound p.toText)

/-- the place of a path -/
def locate (t : FileTree) (p : Path) : Except FileFault (List String) :=
  if p.root.isEmpty then t.follow p [] p.names else .error (.notFound p.toText)

def kindOf (t : FileTree) (p : Path) : Option FileKind :=
  match t.locate p with
  | .ok place => t.kindAt place
  | .error _ => none

def contents (t : FileTree) (p : Path) : Except FileFault String := do
  let place ← t.locate p
  match Table.get? place t.texts, t.kindAt place with
  | some text, _ => return text
  | none, some .folder => throw (.isFolder p.toText)
  | none, _ => throw (.notFound p.toText)

/-- the names in a folder, each once -/
def entries (t : FileTree) (p : Path) : List String :=
  match t.locate p with
  | .ok place =>
    let below := (t.texts.map (·.1) ++ t.folders).filter (leadsTo place)
    (below.filterMap fun other => other[place.length]?).eraseDups
  | .error _ => []

def makeFolder (t : FileTree) (p : Path) : Except FileFault FileTree := do
  let place ← t.locate p
  match t.kindAt place with
  | some _ => throw (.alreadyThere p.toText)
  | none => return { t with folders := t.folders ++ [place] }

def put (t : FileTree) (p : Path) (text : String) : Except FileFault FileTree := do
  let place ← t.locate p
  match t.kindAt place with
  | some .folder => throw (.isFolder p.toText)
  | _ => return { t with texts := Table.put place text t.texts }

/-- a file moved to another path, in place of what is there -/
def move (t : FileTree) (source target : Path) : Except FileFault FileTree := do
  let text ← t.contents source
  let t ← t.put target text
  return { t with texts := Table.remove (← t.locate source) t.texts }

/-- a change of the tree; one that fails leaves it as it is -/
def change (f : FileTree → Except FileFault FileTree) : StateM FileTree (Except FileFault Unit) := fun t =>
  match f t with
  | .ok t' => (.ok (), t')
  | .error e => (.error e, t)

instance : FileAccess (StateM FileTree) where
  kindOf p := fun t => (t.kindOf p, t)
  contents p := fun t => (t.contents p, t)
  entries p := fun t => (t.entries p, t)
  makeFolder p := change (·.makeFolder p)
  put p text := change (·.put p text)
  move source target := change (·.move source target)

end FileTree

end WorkflowGraph
