import WorkflowGraph.Text.Case
import WorkflowGraph.Text.Search
/-
Paths of files: names from a root or from the working folder on. In the text of a path empty names and single points
mean nothing; two points are a name like any other until the path is followed.
-/
namespace WorkflowGraph

/-- a path; the root is empty for a path from the working folder -/
structure Path where
  root : String
  names : List String
  deriving DecidableEq

namespace Path

/-- the root that the slashes at the start of a text stand for; exactly two are a root of their own -/
def rootOf (cs : List Char) : String :=
  match (cs.takeWhile (· == '/')).length with
  | 0 => ""
  | 2 => "//"
  | _ => "/"

/-- the path that a text writes -/
def ofText (s : String) : Path :=
  ⟨rootOf s.toList, (Text.pieces '/' s).filter fun name => name ≠ "" && name ≠ "."⟩

/-- the text of a path; the working folder is a single point -/
def toText (p : Path) : String :=
  if p.root.isEmpty && p.names.isEmpty then "." else p.root ++ "/".intercalate p.names

/-- the last name, empty when there is none -/
def name (p : Path) : String := p.names.getLast?.getD ""

def parent (p : Path) : Path := { p with names := p.names.dropLast }

/-- the path of an entry of a folder -/
def child (p : Path) (name : String) : Path := { p with names := p.names ++ [name] }

/-- a path followed from another one; a path from a root stands for itself -/
def append (p q : Path) : Path := if q.root.isEmpty then { p with names := p.names ++ q.names } else q

/-- the last point of a name and what follows it; a name may neither start nor end with that point -/
def suffix (p : Path) : String :=
  let cs := p.name.toList
  let ending := Text.afterLast '.' cs
  if ending.isEmpty || ending.length + 1 ≥ cs.length then "" else String.ofList ('.' :: ending)

/-- the suffix in small letters, by which the format of a file is told -/
def format (p : Path) : String := Text.lower p.suffix

/-- the path beside this one that a text is first written to -/
def scratch (p : Path) : Path := p.parent.child (p.name ++ ".tmp")

end Path

end WorkflowGraph
