import WorkflowGraph.Synthesis.Canvas
/-
How the requirements of a branch are laid out, from left to right. Every step of the layout starts from the node that the
next one is connected to and takes one or more requirements: a parallel step fans out into one row for each channel, a
switch routes to the steps that follow it, and anything else is one node after the other.
-/
namespace WorkflowGraph

/-- the place from which a branch goes on: the node to connect to and the next free column -/
structure Cursor where
  current : String
  x : Int

namespace Synthesis

/-! ## Parallel rows -/

/-- requirements grouped into rows: the rows, their channels, the requirement that merges them, and what is left -/
structure RowScan where
  rows : List (List Requirement)
  channels : List String
  merge : Option Requirement
  rest : List Requirement

/-- the channel of a requirement, unless a row has it already -/
def newChannel? (seen : List String) (r : Requirement) : Option String := r.channel.filter fun ch => !seen.contains ch

/-- a requirement added to the last row -/
def extendLast (rows : List (List Requirement)) (r : Requirement) : List (List Requirement) :=
  match rows with
  | [] => []
  | [row] => [row ++ [r]]
  | row :: rest => row :: extendLast rest r

/-- the rows of the requirements after the head: a new channel opens a row and any other step goes on with the last
one; a merge, a switch or a step before the first row ends them -/
def scanRows (rows : List (List Requirement)) (seen : List String) : List Requirement → RowScan
  | [] => ⟨rows, seen, none, []⟩
  | r :: rest =>
    if r.isMerge then ⟨rows, seen, some r, rest⟩
    else if r.isSwitch then ⟨rows, seen, none, r :: rest⟩
    else
      match newChannel? seen r with
      | some ch => scanRows (rows ++ [[r]]) (seen ++ [ch]) rest
      | none => if rows.isEmpty then ⟨rows, seen, none, r :: rest⟩ else scanRows (extendLast rows r) seen rest

theorem scanRows_rest_length (rows : List (List Requirement)) (seen : List String) (rs : List Requirement) :
    (scanRows rows seen rs).rest.length ≤ rs.length := by
  induction rs generalizing rows seen with
  | nil => simp [scanRows]
  | cons r rest ih =>
    unfold scanRows
    split
    · simp
    · split
      · simp
      · split
        · exact Nat.le_succ_of_le (ih _ _)
        · split
          · simp
          · exact Nat.le_succ_of_le (ih _ _)

/-- the rows that a head and the requirements after it make; a head that names a channel starts the first row -/
def rowsOf (head : Requirement) (rest : List Requirement) : RowScan :=
  match head.channel with
  | some ch => scanRows [[head]] [ch] rest
  | none => scanRows [] [] rest

theorem rowsOf_rest_length (head : Requirement) (rest : List Requirement) :
    (rowsOf head rest).rest.length ≤ rest.length := by
  unfold rowsOf
  split <;> exact scanRows_rest_length _ _ _

/-- one row of requirements, each connected to the one before it -/
def layRow (cfg : BuildConfig) (c : Canvas) (at' : Cursor) (y : Int) : List Requirement → Canvas × Cursor
  | [] => (c, at')
  | r :: rest =>
    let (name, c) := c.place cfg r at'.x y
    layRow cfg (c.connect at'.current 0 name 0) ⟨name, at'.x + cfg.spacingX⟩ y rest

/-- rows below one another that start from the same node: the ends of the rows, and the column right of the longest -/
def layRows (cfg : BuildConfig) (c : Canvas) (at' : Cursor) (y : Int) :
    List (List Requirement) → Canvas × List String × Int
  | [] => (c, [], at'.x)
  | row :: rows =>
    let (c, stop) := layRow cfg c at' y row
    let (c, ends, x) := layRows cfg c at' (y + cfg.siblingSpacing) rows
    (c, stop.current :: ends, max stop.x x)

/-- the rows of a parallel step, all from one node, and a node that merges them -/
def layMergedRows (cfg : BuildConfig) (c : Canvas) (start : Cursor) (y : Int) (head : Requirement) (scan : RowScan) :
    Canvas × Cursor :=
  let (c, ends, x) := layRows cfg c start y scan.rows
  let (merge, c) := c.addMerge scan.merge "Merge Results" x y "append" 1
  let c := (c.connectEnds merge 0 ends).note "parallel"
    [("node", head.name), ("channels", .list (scan.channels.map Value.text)), ("merge", merge)]
  (c, ⟨merge, x + cfg.spacingX⟩)

/-- a parallel step: its rows start from its own node, unless that is part of the first row -/
def layParallel (cfg : BuildConfig) (c : Canvas) (at' : Cursor) (y : Int) (head : Requirement) (scan : RowScan) :
    Canvas × Cursor :=
  if head.channel.isSome then layMergedRows cfg c at' y head scan
  else
    let (name, c) := c.place cfg head at'.x y
    layMergedRows cfg (c.connect at'.current 0 name 0) ⟨name, at'.x + cfg.spacingX⟩ y head scan

/-! ## Switches -/

/-- words in a description and the routes that they stand for -/
def routeLabels : List (List String × List String) := [
  (["payment"], ["stripe", "paypal", "crypto"]),
  (["shipping"], ["dhl", "ups", "fedex"]),
  (["risk", "score"], ["low", "medium", "high"])]

def defaultLabels : List String := ["option1", "option2", "option3"]

/-- the routes that a description stands for -/
def switchLabels (description : String) : List String :=
  let lower := Text.lower description
  ((routeLabels.find? fun e => Text.containsAny lower e.1).map (·.2)).getD defaultLabels

/-- the rule that sends a label to a port -/
def routeRule (label : String) (port : Nat) : Value :=
  Parameters.object [("operation", "equal"), ("value2", .text label), ("output", .int port)]

/-- the parameters of a switch with a rule for each label -/
def switchRules (labels : List String) : Fields :=
  [(.text "dataType", .text "string"), (.text "value1", .text "=\x7b\x7b $json.route \x7d\x7d"),
    (.text "rules", Parameters.object [("rules", .list (labels.zipIdx.map fun (label, k) => routeRule label k))]),
    (.text "fallbackOutput", .int (-1))]

/-- the steps that a switch routes to: those that follow it, up to the next motif and one for each label at most -/
def routesOf (labels : List String) (rest : List Requirement) : List Requirement :=
  (rest.take labels.length).takeWhile fun r => !r.isMotif

/-- routes below one another, each leaving the switch by a port of its own, the first by port `k`; their names -/
def layRoutes (cfg : BuildConfig) (c : Canvas) (router : String) (x y : Int) (k : Nat) :
    List Requirement → Canvas × List String
  | [] => (c, [])
  | r :: rest =>
    let (name, c) := c.place cfg r x (y + k * cfg.siblingSpacing)
    let (c, names) := layRoutes cfg (c.connect router k name 0) router x y (k + 1) rest
    (c, name :: names)

/-- the merge after the routes of a switch -/
def laySwitchMerge (cfg : BuildConfig) (c : Canvas) (router : String) (ends : List String) (x y : Int)
    (req : Option Requirement) : Canvas × Cursor :=
  let (merge, c) := c.addMerge req ("Merge " ++ router ++ " Results") x y "chooseBranch" 2
  let c := (c.connectEnds merge 0 ends).note "switch-merged" [("node", router), ("merge", merge)]
  (c, ⟨merge, x + cfg.spacingX⟩)

/-- how a branch goes on after the routes of a switch end, and the steps that are left: from the switch or from its only
route, or else from a node that merges the routes; that node is the next step if it is a merge, and is made up if there
is more to come in the branch or behind it -/
def closeSwitch (cfg : BuildConfig) (pending : Bool) (c : Canvas) (router : String) (routeX y : Int)
    (ends : List String) (after : List Requirement) : Canvas × Cursor × List Requirement :=
  let mergeX := routeX + cfg.spacingX
  let merged := fun (req : Option Requirement) (left : List Requirement) =>
    let (c, at') := laySwitchMerge cfg c router ends mergeX y req
    (c, at', left)
  match ends with
  | [] => (c, ⟨router, routeX⟩, after)
  | [only] => (c, ⟨only, mergeX⟩, after)
  | _ =>
    match after with
    | next :: others => if next.isMerge then merged (some next) others else merged none (next :: others)
    | [] => if pending then merged none [] else (c, ⟨router, mergeX⟩, [])

/-- a switch that has been laid out with its routes: its name, the names of the routes, and the canvas with all of them -/
structure OpenSwitch where
  canvas : Canvas
  router : String
  ends : List String

/-- a switch with a rule for each route, or for each label that its description stands for if nothing follows it -/
def openSwitch (cfg : BuildConfig) (c : Canvas) (at' : Cursor) (y : Int) (r : Requirement)
    (inferred : List String) (routes : List Requirement) : OpenSwitch :=
  let labels := if routes.isEmpty then inferred else inferred.take routes.length
  let (router, c) := c.add ⟨Catalog.fullTag "switch", r.name, at'.x, y, switchRules labels, 1, .step r⟩
  let c := (c.connect at'.current 0 router 0).openPorts router labels.length
  let c := c.note "switch"
    [("node", router), ("labels", .list (labels.map Value.text)), ("routes", .int routes.length)]
  let (c, ends) := layRoutes cfg c router (at'.x + cfg.spacingX) y 0 routes
  ⟨c, router, ends⟩

/-- a switch, its routes, and a node that merges them unless they end the branch -/
def laySwitch (cfg : BuildConfig) (pending : Bool) (c : Canvas) (at' : Cursor) (y : Int) (r : Requirement)
    (rest : List Requirement) : Canvas × Cursor × List Requirement :=
  let inferred := switchLabels r.text
  let routes := routesOf inferred rest
  let opened := openSwitch cfg c at' y r inferred routes
  closeSwitch cfg pending opened.canvas opened.router (at'.x + cfg.spacingX) y opened.ends (rest.drop routes.length)

/-! ## Steps -/

/-- one requirement after the node before it -/
def laySingle (cfg : BuildConfig) (c : Canvas) (at' : Cursor) (y : Int) (r : Requirement) : Canvas × Cursor :=
  let (name, c) := c.place cfg r at'.x y
  (c.connect at'.current 0 name 0, ⟨name, at'.x + cfg.spacingX⟩)

/-- a switch or a single step -/
def layPlain (cfg : BuildConfig) (pending : Bool) (c : Canvas) (at' : Cursor) (y : Int) (r : Requirement)
    (rest : List Requirement) : Canvas × Cursor × List Requirement :=
  if r.isSwitch then laySwitch cfg pending c at' y r rest
  else
    let (c, at') := laySingle cfg c at' y r
    (c, at', rest)

/-- the next step of a layout, and the requirements that it leaves -/
def layStep (cfg : BuildConfig) (pending : Bool) (c : Canvas) (at' : Cursor) (y : Int) (r : Requirement)
    (rest : List Requirement) : Canvas × Cursor × List Requirement :=
  if r.isParallel && !rest.isEmpty then
    let scan := rowsOf r rest
    if scan.rows.length < 2 then
      layPlain cfg pending
        (c.note "parallel-fallthrough" [("node", r.name), ("rows", .int scan.rows.length)]) at' y r rest
    else
      let (c, at') := layParallel cfg c at' y r scan
      (c, at', scan.rest)
  else layPlain cfg pending c at' y r rest

theorem closeSwitch_rest_length (cfg : BuildConfig) (pending : Bool) (c : Canvas) (router : String) (routeX y : Int)
    (ends : List String) (after : List Requirement) :
    (closeSwitch cfg pending c router routeX y ends after).2.2.length ≤ after.length := by
  unfold closeSwitch
  dsimp only
  split
  · exact Nat.le_refl _
  · exact Nat.le_refl _
  · split
    · split
      · exact Nat.le_succ _
      · exact Nat.le_refl _
    · split <;> exact Nat.le_refl _

theorem laySwitch_rest_length (cfg : BuildConfig) (pending : Bool) (c : Canvas) (at' : Cursor) (y : Int)
    (r : Requirement) (rest : List Requirement) :
    (laySwitch cfg pending c at' y r rest).2.2.length ≤ rest.length := by
  have hdrop : ∀ n, (rest.drop n).length ≤ rest.length := fun n => by simp
  unfold laySwitch
  dsimp only
  generalize switchLabels r.text = labels
  exact Nat.le_trans (closeSwitch_rest_length ..) (hdrop _)

theorem layPlain_rest_length (cfg : BuildConfig) (pending : Bool) (c : Canvas) (at' : Cursor) (y : Int)
    (r : Requirement) (rest : List Requirement) :
    (layPlain cfg pending c at' y r rest).2.2.length ≤ rest.length := by
  unfold layPlain
  split
  · exact laySwitch_rest_length ..
  · exact Nat.le_refl _

theorem layStep_rest_length (cfg : BuildConfig) (pending : Bool) (c : Canvas) (at' : Cursor) (y : Int)
    (r : Requirement) (rest : List Requirement) :
    (layStep cfg pending c at' y r rest).2.2.length ≤ rest.length := by
  unfold layStep
  split
  · dsimp only
    split
    · exact layPlain_rest_length ..
    · exact rowsOf_rest_length r rest
  · exact layPlain_rest_length ..

/-- all requirements of a branch laid out one step after the other; every step takes at least one of them -/
def layAll (cfg : BuildConfig) (pending : Bool) (c : Canvas) (at' : Cursor) (y : Int) :
    List Requirement → Canvas × Cursor
  | [] => (c, at')
  | r :: rest =>
    let next := layStep cfg pending c at' y r rest
    layAll cfg pending next.1 next.2.1 y next.2.2
  termination_by rs => rs.length
  decreasing_by exact Nat.lt_succ_of_le (layStep_rest_length ..)

end Synthesis

end WorkflowGraph
