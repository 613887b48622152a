import WorkflowGraph.Proofs.Trace
import WorkflowGraph.Synthesis.Build
/-
What a layout decides. Only a few operations record anything: a step that would be a trigger, a parallel step, a switch,
the start of a branch and the handling of errors. All others leave the trace as it is or are made of these.

- `noted_layStep`, `noted_layAll`: one step of a branch, and the whole branch.
- `noted_lay`: the layout of a plan.
-/
namespace WorkflowGraph

namespace Synthesis

/-- the rules for laying out a plan -/
def layoutRules : List String := [
  "trigger-step-demoted", "parallel", "parallel-fallthrough", "switch", "switch-merged", "schedule", "trigger",
  "error-handling"]

/-- everything on a canvas was decided under the rules of a layout -/
structure Noted (c : Canvas) : Prop where
  under : c.trace.Under layoutRules

variable {cfg : BuildConfig} {c : Canvas} {at' : Cursor} {x y : Int} {pending : Bool}

/-! ## Operations -/

theorem Noted.note (h : Noted c) {rule : String} (hrule : rule ∈ layoutRules) (detail : List (String × Value)) :
    Noted (c.note rule detail) :=
  ⟨h.under.append (Trace.under_event hrule)⟩

theorem Noted.add (h : Noted c) (r : NodeRequest) : Noted (c.add r).2 := ⟨h.under⟩

theorem Noted.connect (h : Noted c) (source : String) (port : Nat) (target : String) (index : Nat) :
    Noted (c.connect source port target index) := ⟨h.under⟩

theorem Noted.turn (h : Noted c) (branch : Option Nat) (y : Int) :
    Noted { c with branch := branch, lowestY := y } := ⟨h.under⟩

theorem Noted.place (h : Noted c) (r : Requirement) (x y : Int) : Noted (c.place cfg r x y).2 := by
  unfold Canvas.place
  split
  · exact (h.note (by decide) _).add _
  · exact h.add _

theorem Noted.addMerge (h : Noted c) (req : Option Requirement) (wanted mode : String) (typeVersion : Nat) :
    Noted (c.addMerge req wanted x y mode typeVersion).2 := by
  cases req with
  | none => exact h.add _
  | some r => exact h.add _

theorem Noted.connectEnds (h : Noted c) (merge : String) (k : Nat) (ends : List String) :
    Noted (c.connectEnds merge k ends) := by
  induction ends generalizing c k with
  | nil => exact h
  | cons e ends ih =>
    rw [Canvas.connectEnds]
    exact ih (h.connect _ _ _ _) (k + 1)

/-! ## Parallel rows -/

theorem noted_layRow (h : Noted c) (row : List Requirement) : Noted (layRow cfg c at' y row).1 := by
  induction row generalizing c at' with
  | nil => exact h
  | cons r row ih =>
    rw [layRow]
    exact ih ((h.place r _ _).connect _ _ _ _)

theorem noted_layRows (h : Noted c) (rows : List (List Requirement)) : Noted (layRows cfg c at' y rows).1 := by
  induction rows generalizing c y with
  | nil => exact h
  | cons row rows ih =>
    rw [layRows]
    exact ih (noted_layRow h row)

theorem noted_layMergedRows (h : Noted c) (head : Requirement) (scan : RowScan) :
    Noted (layMergedRows cfg c at' y head scan).1 := by
  have hrows : Noted (layRows cfg c at' y scan.rows).1 := noted_layRows h scan.rows
  unfold layMergedRows
  generalize layRows cfg c at' y scan.rows = out at hrows ⊢
  dsimp only
  exact ((hrows.addMerge _ _ _ _).connectEnds _ _ _).note (by decide) _

theorem noted_layParallel (h : Noted c) (head : Requirement) (scan : RowScan) :
    Noted (layParallel cfg c at' y head scan).1 := by
  unfold layParallel
  split
  · exact noted_layMergedRows h head scan
  · exact noted_layMergedRows ((h.place head _ _).connect _ _ _ _) head scan

/-! ## Switches -/

theorem noted_layRoutes (h : Noted c) (router : String) (k : Nat) (routes : List Requirement) :
    Noted (layRoutes cfg c router x y k routes).1 := by
  induction routes generalizing c k with
  | nil => exact h
  | cons r routes ih =>
    rw [layRoutes]
    exact ih ((h.place r _ _).connect _ _ _ _) (k + 1)

theorem noted_laySwitchMerge (h : Noted c) (router : String) (ends : List String) (req : Option Requirement) :
    Noted (laySwitchMerge cfg c router ends x y req).1 := by
  unfold laySwitchMerge
  dsimp only
  exact ((h.addMerge req _ _ _).connectEnds _ _ _).note (by decide) _

theorem noted_closeSwitch (h : Noted c) (router : String) (ends : List String) (after : List Requirement) :
    Noted (closeSwitch cfg pending c router x y ends after).1 := by
  unfold closeSwitch
  dsimp only
  split
  · exact h
  · exact h
  · have hmerged : ∀ req, Noted (laySwitchMerge cfg c router ends (x + cfg.spacingX) y req).1 :=
      noted_laySwitchMerge h router ends
    split
    · split
      · dsimp only
        exact hmerged _
      · dsimp only
        exact hmerged none
    · split
      · dsimp only
        exact hmerged none
      · exact h

theorem noted_openSwitch (h : Noted c) (r : Requirement) (inferred : List String) (routes : List Requirement) :
    Noted (openSwitch cfg c at' y r inferred routes).canvas := by
  unfold openSwitch
  dsimp only
  refine noted_layRoutes (Noted.note ?_ (by decide) _) _ _ _
  exact ⟨h.under⟩

theorem noted_laySwitch (h : Noted c) (r : Requirement) (rest : List Requirement) :
    Noted (laySwitch cfg pending c at' y r rest).1 := by
  unfold laySwitch
  dsimp only
  generalize switchLabels r.text = labels
  exact noted_closeSwitch (noted_openSwitch h r _ _) _ _ _

/-! ## Steps -/

theorem noted_layPlain (h : Noted c) (r : Requirement) (rest : List Requirement) :
    Noted (layPlain cfg pending c at' y r rest).1 := by
  unfold layPlain
  split
  · exact noted_laySwitch h r rest
  · exact (h.place r _ _).connect _ _ _ _

/-- whichever motif takes the next requirement decides under the rules -/
theorem noted_layStep (h : Noted c) (r : Requirement) (rest : List Requirement) :
    Noted (layStep cfg pending c at' y r rest).1 := by
  unfold layStep
  split
  · dsimp only
    split
    · exact noted_layPlain (h.note (by decide) _) r rest
    · exact noted_layParallel h r _
  · exact noted_layPlain h r rest

theorem noted_layAll (h : Noted c) (rs : List Requirement) : Noted (layAll cfg pending c at' y rs).1 := by
  induction c, at', rs using layAll.induct cfg pending y with
  | case1 c at' =>
    rw [layAll]
    exact h
  | case2 c at' r rest next ih =>
    rw [layAll]
    exact ih (noted_layStep h r rest)

/-! ## Branches -/

theorem noted_placeTrigger (h : Noted c) (lower : String) : Noted (placeTrigger c lower x y).2 := by
  unfold placeTrigger
  split
  · exact h.add _
  · split
    · dsimp only
      exact (h.add _).note (by decide) _
    · split
      · exact h.add _
      · exact h.add _

theorem noted_addTrigger (h : Noted c) (text : String) : Noted (addTrigger c text x y).2 := by
  have hplaced := noted_placeTrigger (x := x) (y := y) h (Text.lower text)
  unfold addTrigger
  dsimp only
  generalize placeTrigger c (Text.lower text) x y = out at hplaced ⊢
  exact hplaced.note (by decide) _

theorem noted_addResponse (h : Noted c) : Noted (addResponse c at' y) := by
  unfold addResponse
  split
  · exact h
  · exact (h.add _).connect _ _ _ _

theorem noted_layBranch (h : Noted c) (number : Nat) (b : PlanBranch) : Noted (layBranch cfg c number b y) := by
  have htrigger := noted_addTrigger (x := cfg.startX) (y := y) (h.turn (some number) y) b.triggerType
  unfold layBranch
  dsimp only
  generalize addTrigger _ b.triggerType cfg.startX y = out at htrigger ⊢
  have hlaid : Noted
      (layAll cfg (owesResponse b) out.2 ⟨out.1, cfg.startX + cfg.spacingX⟩ y b.requirements).1 :=
    noted_layAll htrigger b.requirements
  split
  · exact noted_addResponse hlaid
  · exact hlaid

theorem noted_layBranches (h : Noted c) (number : Nat) (bs : List PlanBranch) :
    Noted (layBranches cfg c number y bs) := by
  induction bs generalizing c number y with
  | nil => exact h
  | cons b bs ih =>
    rw [layBranches]
    exact ih (noted_layBranch h number b) (number + 1)

theorem noted_addErrorHandling (h : Noted c) : Noted (addErrorHandling cfg c) := by
  unfold addErrorHandling
  dsimp only
  refine Noted.note ?_ (by decide) _
  refine Noted.connect ?_ _ _ _ _
  exact ((h.turn none c.lowestY).add _).add _

/-- **What a layout decides** is decided under its rules. -/
theorem noted_lay (cfg : BuildConfig) (sources : Identifiers) (p : Plan) : Noted (lay cfg sources p) := by
  have hbranches : Noted (layBranches cfg (.empty sources) 0 cfg.startY p.branches) :=
    noted_layBranches ⟨Trace.under_nil _⟩ 0 p.branches
  unfold lay
  split
  · exact noted_addErrorHandling hbranches
  · exact hbranches

end Synthesis

end WorkflowGraph
