import WorkflowGraph.File.Access
/-
Patterns of file names. A star stands for any characters, a question mark for one, and brackets for one of a set; a name
that begins with a point is only found by a pattern that does. The segments of a pattern are matched folder by folder.
-/
namespace WorkflowGraph

namespace Glob

/-- a part of a pattern -/
inductive Piece where
  | any
  | one
  | literal (c : Char)
  /-- a character in one of some ranges, or in none of them -/
  | set (negated : Bool) (ranges : List (Char × Char))

/-- the ranges in the text between brackets; a single character is a range of its own -/
def rangesOf : List Char → List (Char × Char)
  | [] => []
  | low :: '-' :: high :: rest => (low, high) :: rangesOf rest
  | c :: rest => (c, c) :: rangesOf rest

/-- the set after an opening bracket and what follows it, if it is closed; a bracket that comes first belongs to it -/
def takeSet? (cs : List Char) : Option (Piece × List Char) :=
  let (negated, body) :=
    match cs with
    | '!' :: rest => (true, rest)
    | _ => (false, cs)
  let (head, rest) :=
    match body with
    | ']' :: rest => ([']'], rest)
    | _ => ([], body)
  match Text.cut? [']'] rest with
  | some (inner, after) => some (.set negated (rangesOf (head ++ inner)), after)
  | none => none

/-- the pieces of one segment; `fuel` is its length -/
def piecesOf : Nat → List Char → List Piece
  | 0, _ => []
  | _, [] => []
  | fuel + 1, '*' :: rest => .any :: piecesOf fuel rest
  | fuel + 1, '?' :: rest => .one :: piecesOf fuel rest
  | fuel + 1, '[' :: rest =>
    match takeSet? rest with
    | some (piece, after) => piece :: piecesOf fuel after
    | none => .literal '[' :: piecesOf fuel rest
  | fuel + 1, c :: rest => .literal c :: piecesOf fuel rest

/-- whether a piece stands for a character -/
def Piece.accepts : Piece → Char → Bool
  | .any, _ => true
  | .one, _ => true
  | .literal d, c => c == d
  | .set negated ranges, c => (ranges.any fun (low, high) => low ≤ c && c ≤ high) != negated

mutual

/-- whether pieces stand for a whole name -/
def fits : List Piece → List Char → Bool
  | [], cs => cs.isEmpty
  | .any :: ps, cs => fitsLater ps cs
  | _ :: _, [] => false
  | p :: ps, c :: cs => p.accepts c && fits ps cs
  termination_by ps cs => (ps.length, cs.length, 0)

/-- whether pieces stand for the end of a name -/
def fitsLater (ps : List Piece) (cs : List Char) : Bool :=
  fits ps cs ||
    match cs with
    | [] => false
    | _ :: rest => fitsLater ps rest
  termination_by (ps.length, cs.length, 1)

end

/-- whether a segment is more than a plain name -/
def isPattern (segment : String) : Bool := segment.toList.any fun c => ['*', '?', '['].contains c

def isHidden (name : String) : Bool := name.toList.head? == some '.'

/-- whether a segment finds a name -/
def finds (segment name : String) : Bool :=
  (isHidden segment || !isHidden name) && fits (piecesOf segment.length segment.toList) name.toList

/-- the path of a name in a folder, as a text -/
def join (folder name : String) : String :=
  if folder.isEmpty then name else if folder.toList.getLast? == some '/' then folder ++ name else folder ++ "/" ++ name

variable {m : Type → Type} [Monad m] [FileAccess m]

/-- what a segment finds in a folder; a segment before the last one finds folders only -/
def step (last : Bool) (segment folder : String) : ExceptT Fault m (List String) := do
  if isPattern segment then
    let names ← ExceptT.lift (FileAccess.entries (Path.ofText folder))
    let found := (names.filter (finds segment)).map (join folder)
    if last then return found
    found.filterM fun path => do return (← File.kindOf (Path.ofText path)) == some .folder
  else
    let path := join folder segment
    match ← File.kindOf (Path.ofText path) with
    | some .folder => return [path]
    | some .file => return if last && !segment.isEmpty then [path] else []
    | none => return []

/-- what segments find in folders -/
def walk (folders : List String) : List String → ExceptT Fault m (List String)
  | [] => return folders
  | segment :: rest => do
    let found ← folders.mapM (step rest.isEmpty segment)
    walk found.flatten rest

/-- the paths that a pattern finds, sorted -/
def expand (pattern : String) : ExceptT Fault m (List String) := do
  if pattern.isEmpty then return []
  let segments := Text.pieces '/' pattern
  let start := Path.rootOf pattern.toList
  let closed := segments.getLast? == some ""
  let names := (segments.filter fun s => !s.isEmpty) ++ if closed then [""] else []
  return (← walk [start] names).mergeSort fun a b => decide (a ≤ b)

end Glob

end WorkflowGraph
