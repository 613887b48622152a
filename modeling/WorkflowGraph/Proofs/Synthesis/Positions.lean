import WorkflowGraph.Proofs.Synthesis.Trailing
/-
Where the nodes of a plan stand. A branch goes on from a place such that every node stands left of it or above it. So a
node that is placed there stands alone, and the places right of it and below it are of the same kind: rows and routes
are laid out below one another, and what joins them right of the longest. The next branch begins below the lowest row.

- `layStep_room`, `layAll_room`: a motif, and a branch, goes on from such a place.
- `layBranch_stacked`: one more branch stands below the others.
- `build_apart`: the nodes of the document of a plan.
-/
namespace WorkflowGraph

/-- where a node stands -/
def PlacedNode.spot (n : PlacedNode) : Int × Int := (n.x, n.y)

namespace Canvas

/-- nothing stands at a place, right of it or below it -/
def FreeFrom (c : Canvas) (x y : Int) : Prop := ∀ n ∈ c.nodes, n.x < x ∨ n.y < y

/-- one more node stands on a canvas -/
structure Gains (c : Canvas) (x y : Int) (d : Canvas) : Prop where
  nodes : ∃ m : PlacedNode, d.nodes = c.nodes ++ [m] ∧ m.spot = (x, y) ∧ m.branch = c.branch
  branch : d.branch = c.branch
  lowest : d.lowestY = max c.lowestY y

/-- a branch is laid out on the rows from `y` on, with a place for every node -/
structure Spread (s : Canvas) (y : Int) (c : Canvas) : Prop where
  spots : (c.nodes.map PlacedNode.spot).Nodup
  nodes : ∃ added, c.nodes = s.nodes ++ added ∧ ∀ n ∈ added, n.branch = s.branch ∧ y ≤ n.y
  branch : c.branch = s.branch
  row : y ≤ c.lowestY
  lowest : ∀ n ∈ c.nodes, n.y ≤ c.lowestY

/-- and it can go on from a column of its first row -/
structure Room (s : Canvas) (y : Int) (c : Canvas) (x : Int) : Prop extends Spread s y c where
  free : c.FreeFrom x y

variable {s c d : Canvas} {x x' y y' : Int}

/-! ## One node more -/

theorem FreeFrom.mono (h : c.FreeFrom x y) (hx : x ≤ x') (hy : y ≤ y') : c.FreeFrom x' y' :=
  fun n hn => (h n hn).imp (fun hleft => hleft.trans_le hx) fun habove => habove.trans_le hy

/-- what is free stays so, as long as the new node stands left of it or above it -/
theorem FreeFrom.gain (h : c.FreeFrom x' y') (hd : Gains c x y d) (hspot : x < x' ∨ y < y') : d.FreeFrom x' y' := by
  obtain ⟨m, hnodes, hm, -⟩ := hd.nodes
  intro n hn
  rw [hnodes] at hn
  rcases List.mem_append.1 hn with hold | hnew
  · exact h n hold
  · obtain rfl : n = m := List.mem_singleton.1 hnew
    obtain ⟨rfl, rfl⟩ := Prod.mk.inj hm
    exact hspot

/-- **A node that is placed where nothing stands has the place for itself.** -/
theorem Spread.gain (h : Spread s y c) (hd : Gains c x y' d) (hfree : c.FreeFrom x y') (hrow : y ≤ y') :
    Spread s y d := by
  obtain ⟨m, hnodes, hm, hmine⟩ := hd.nodes
  obtain ⟨hx, hy⟩ := Prod.mk.inj hm
  obtain ⟨added, hadded, hrows⟩ := h.nodes
  refine ⟨?_, ⟨added ++ [m], ?_, ?_⟩, hd.branch.trans h.branch, ?_, ?_⟩
  · rw [hnodes, List.map_append, List.nodup_append]
    refine ⟨h.spots, List.nodup_singleton _, fun a ha b hb => ?_⟩
    obtain ⟨n, hn, rfl⟩ := List.mem_map.1 ha
    obtain rfl : b = (x, y') := (List.mem_singleton.1 hb).trans hm
    intro hsame
    obtain ⟨rfl, rfl⟩ := Prod.mk.inj hsame
    exact (hfree n hn).elim (lt_irrefl _) (lt_irrefl _)
  · rw [hnodes, hadded, List.append_assoc]
  · refine List.forall_mem_append.2 ⟨hrows, List.forall_mem_singleton.2 ⟨hmine.trans h.branch, ?_⟩⟩
    exact hrow.trans_eq hy.symm
  · rw [hd.lowest]
    exact h.row.trans (le_max_left _ _)
  · rw [hnodes, hd.lowest]
    refine List.forall_mem_append.2 ⟨fun n hn => (h.lowest n hn).trans (le_max_left _ _), ?_⟩
    exact List.forall_mem_singleton.2 (hy.trans_le (le_max_right _ _))

theorem Room.note (h : Room s y c x) (rule : String) (detail : List (String × Value)) :
    Room s y (c.note rule detail) x := ⟨⟨h.spots, h.nodes, h.branch, h.row, h.lowest⟩, h.free⟩

/-- a node placed where the branch goes on, which it does from the next column then -/
theorem Room.gain (h : Room s y c x) (hd : Gains c x y d) (hx : x < x') : Room s y d x' :=
  ⟨h.toSpread.gain hd h.free le_rfl, (h.free.mono hx.le le_rfl).gain hd (Or.inl hx)⟩

/-! ## How nodes are placed -/

theorem gains_add (c : Canvas) (r : NodeRequest) : Gains c r.x r.y (c.add r).2 :=
  ⟨⟨c.newNode r, nodes_add c r, rfl, rfl⟩, branch_add c r, lowestY_add c r⟩

theorem Gains.note (h : Gains c x y d) (rule : String) (detail : List (String × Value)) :
    Gains c x y (d.note rule detail) := ⟨h.nodes, h.branch, h.lowest⟩

theorem Gains.connect (h : Gains c x y d) (source : String) (port : Nat) (target : String) (index : Nat) :
    Gains c x y (d.connect source port target index) := ⟨h.nodes, h.branch, h.lowest⟩

theorem Gains.openPorts (h : Gains c x y d) (source : String) (count : Nat) :
    Gains c x y (d.openPorts source count) := ⟨h.nodes, h.branch, h.lowest⟩

theorem Gains.connectEnds (h : Gains c x y d) (merge : String) (k : Nat) (ends : List String) :
    Gains c x y (d.connectEnds merge k ends) := by
  rw [connectEnds_eq_feed]
  exact ⟨h.nodes, h.branch, h.lowest⟩

theorem gains_place (cfg : BuildConfig) (c : Canvas) (r : Requirement) (x y : Int) :
    Gains c x y (c.place cfg r x y).2 := by
  unfold place
  split
  · have hadded := gains_add (c.note "trigger-step-demoted" [("node", r.name), ("type", r.type)])
      ⟨cfg.defaultNodeType, r.name, x, y, [], 1, .step r⟩
    exact ⟨hadded.nodes, hadded.branch, hadded.lowest⟩
  · exact gains_add c ⟨r.type, r.name, x, y, [], 1, .step r⟩

theorem gains_merge (c : Canvas) (req : Option Requirement) (wanted : String) (x y : Int) (mode : String)
    (typeVersion : Nat) : Gains c x y (c.addMerge req wanted x y mode typeVersion).2 := by
  cases req with
  | none => exact gains_add c ⟨_, wanted, x, y, _, typeVersion, .join⟩
  | some r => exact gains_add c ⟨_, r.name, x, y, _, typeVersion, .step r⟩

end Canvas

namespace Synthesis

open Canvas

variable {cfg : BuildConfig} {s c : Canvas} {at' : Cursor} {y y' : Int}

section

variable (hx : 0 < cfg.spacingX)

include hx

/-! ## Rows -/

/-- a row stands left of its end, and nowhere below itself -/
theorem layRow_spread (h : Spread s y c) (hfree : c.FreeFrom at'.x y') (hrow : y ≤ y') (rs : List Requirement) :
    Spread s y (layRow cfg c at' y' rs).1 ∧ at'.x ≤ (layRow cfg c at' y' rs).2.x ∧
      ∀ a b, (layRow cfg c at' y' rs).2.x ≤ a ∨ y' < b → c.FreeFrom a b →
        (layRow cfg c at' y' rs).1.FreeFrom a b := by
  induction rs generalizing c at' with
  | nil => exact ⟨h, le_rfl, fun _ _ _ hold => hold⟩
  | cons r rest ih =>
    have hright : at'.x < at'.x + cfg.spacingX := by omega
    have hgains := (gains_place cfg c r at'.x y').connect at'.current 0 (c.place cfg r at'.x y').1 0
    rw [layRow]
    dsimp only
    generalize hnext : Cursor.mk (c.place cfg r at'.x y').1 (at'.x + cfg.spacingX) = next
    have hcolumn : next.x = at'.x + cfg.spacingX := hnext ▸ rfl
    rw [← hcolumn] at hright
    obtain ⟨hspread, hle, hkeeps⟩ := ih (h.gain hgains hfree hrow)
      ((hfree.mono hright.le le_rfl).gain hgains (Or.inl hright))
    refine ⟨hspread, hright.le.trans hle, fun a b hbeyond hold => hkeeps a b hbeyond (hold.gain hgains ?_)⟩
    exact hbeyond.imp_left fun hend => hright.trans_le (hle.trans hend)

variable (hsibling : 0 < cfg.siblingSpacing)

include hsibling

/-- rows below one another stand left of the column that is given -/
theorem layRows_spread (h : Spread s y c) (hfree : c.FreeFrom at'.x y') (hrow : y ≤ y')
    (rows : List (List Requirement)) :
    Spread s y (layRows cfg c at' y' rows).1 ∧ at'.x ≤ (layRows cfg c at' y' rows).2.2 ∧
      ∀ a b, (layRows cfg c at' y' rows).2.2 ≤ a → c.FreeFrom a b → (layRows cfg c at' y' rows).1.FreeFrom a b := by
  induction rows generalizing c y' with
  | nil => exact ⟨h, le_rfl, fun _ _ _ hold => hold⟩
  | cons row rows ih =>
    have hbelow : y' < y' + cfg.siblingSpacing := by omega
    obtain ⟨hfirst, hstart, hkeeps⟩ := layRow_spread hx h hfree hrow row
    have hnext := hkeeps at'.x (y' + cfg.siblingSpacing) (Or.inr hbelow) (hfree.mono le_rfl hbelow.le)
    obtain ⟨hrest, -, hkeeps'⟩ := ih hfirst hnext (hrow.trans hbelow.le)
    rw [layRows]
    dsimp only
    refine ⟨hrest, hstart.trans (le_max_left _ _), fun a b hbeyond hold => ?_⟩
    rw [max_le_iff] at hbeyond
    exact hkeeps' a b hbeyond.2 (hkeeps a b (Or.inl hbeyond.1) hold)

/-- rows leave room right of the node that joins them -/
theorem layMergedRows_room {start : Cursor} (h : Room s y c start.x) (head : Requirement) (scan : RowScan) :
    Room s y (layMergedRows cfg c start y head scan).1 (layMergedRows cfg c start y head scan).2.x := by
  obtain ⟨hspread, hle, hkeeps⟩ := layRows_spread hx hsibling h.toSpread h.free le_rfl scan.rows
  unfold layMergedRows
  generalize layRows cfg c start y scan.rows = out at hspread hle hkeeps ⊢
  obtain ⟨d, ends, x⟩ := out
  have hright : x < x + cfg.spacingX := by omega
  have hroom : Room s y d x := ⟨hspread, hkeeps x y le_rfl (h.free.mono hle le_rfl)⟩
  have hmerged := (gains_merge d scan.merge "Merge Results" x y "append" 1).connectEnds
    (d.addMerge scan.merge "Merge Results" x y "append" 1).1 0 ends
  exact (hroom.gain hmerged hright).note _ _

omit hsibling in
theorem laySingle_room (h : Room s y c at'.x) (r : Requirement) :
    Room s y (laySingle cfg c at' y r).1 (laySingle cfg c at' y r).2.x := by
  have hright : at'.x < at'.x + cfg.spacingX := by omega
  exact h.gain ((gains_place cfg c r at'.x y).connect at'.current 0 _ 0) hright

theorem layParallel_room (h : Room s y c at'.x) (head : Requirement) (scan : RowScan) :
    Room s y (layParallel cfg c at' y head scan).1 (layParallel cfg c at' y head scan).2.x := by
  unfold layParallel
  split
  · exact layMergedRows_room hx hsibling h head scan
  · exact layMergedRows_room hx hsibling (laySingle_room hx h head) head scan

/-! ## Switches -/

omit hx in
/-- routes below one another stand in one column -/
theorem layRoutes_spread (router : String) {x : Int} (k : Nat) (h : Spread s y c)
    (hfree : c.FreeFrom x (y + k * cfg.siblingSpacing)) (rs : List Requirement) :
    Spread s y (layRoutes cfg c router x y k rs).1 ∧
      ∀ a b, x < a → c.FreeFrom a b → (layRoutes cfg c router x y k rs).1.FreeFrom a b := by
  induction rs generalizing c k with
  | nil => exact ⟨h, fun _ _ _ hold => hold⟩
  | cons r rest ih =>
    have hrow : y ≤ y + k * cfg.siblingSpacing := le_add_of_nonneg_right (by positivity)
    have hbelow : y + k * cfg.siblingSpacing < y + (k + 1 : Nat) * cfg.siblingSpacing := by
      rw [Nat.cast_succ, add_mul, one_mul, ← add_assoc]
      omega
    have hgains := (gains_place cfg c r x (y + k * cfg.siblingSpacing)).connect router k
      (c.place cfg r x (y + k * cfg.siblingSpacing)).1 0
    obtain ⟨hrest, hkeeps⟩ := ih (k + 1) (h.gain hgains hfree hrow)
      ((hfree.mono le_rfl hbelow.le).gain hgains (Or.inr hbelow))
    rw [layRoutes]
    exact ⟨hrest, fun a b hright hold => hkeeps a b hright (hold.gain hgains (Or.inl hright))⟩

/-- a switch leaves room right of its routes, and right of itself if it has none -/
theorem openSwitch_room (h : Room s y c at'.x) (r : Requirement) (inferred : List String) (routes : List Requirement) :
    (routes = [] → Room s y (openSwitch cfg c at' y r inferred routes).canvas (at'.x + cfg.spacingX)) ∧
      Room s y (openSwitch cfg c at' y r inferred routes).canvas (at'.x + cfg.spacingX + cfg.spacingX) := by
  have hright : at'.x < at'.x + cfg.spacingX := by omega
  have hright' : at'.x + cfg.spacingX < at'.x + cfg.spacingX + cfg.spacingX := by omega
  unfold openSwitch
  dsimp only
  generalize (if routes.isEmpty then inferred else inferred.take routes.length) = labels
  have hadded := gains_add c ⟨Catalog.fullTag "switch", r.name, at'.x, y, switchRules labels, 1, .step r⟩
  generalize c.add ⟨Catalog.fullTag "switch", r.name, at'.x, y, switchRules labels, 1, .step r⟩ = out at hadded ⊢
  have hopened := ((hadded.connect at'.current 0 out.1 0).openPorts out.1 labels.length).note "switch"
    [("node", out.1), ("labels", .list (labels.map Value.text)), ("routes", .int routes.length)]
  have hroom := h.gain hopened hright
  obtain ⟨hspread, hkeeps⟩ := layRoutes_spread hsibling out.1 0 hroom.toSpread (by simpa using hroom.free) routes
  refine ⟨?_, hspread, hkeeps _ _ hright' (hroom.free.mono hright'.le le_rfl)⟩
  rintro rfl
  exact hroom

omit hsibling in
theorem laySwitchMerge_room {x : Int} (h : Room s y c x) (router : String) (ends : List String)
    (req : Option Requirement) :
    Room s y (laySwitchMerge cfg c router ends x y req).1 (laySwitchMerge cfg c router ends x y req).2.x := by
  have hright : x < x + cfg.spacingX := by omega
  have hmerged := (gains_merge c req ("Merge " ++ router ++ " Results") x y "chooseBranch" 2).connectEnds
    (c.addMerge req ("Merge " ++ router ++ " Results") x y "chooseBranch" 2).1 0 ends
  exact (h.gain hmerged hright).note _ _

omit hsibling in
theorem closeSwitch_room (pending : Bool) {routeX : Int} {ends : List String} (router : String)
    (hbare : ends = [] → Room s y c routeX) (hled : Room s y c (routeX + cfg.spacingX)) (after : List Requirement) :
    Room s y (closeSwitch cfg pending c router routeX y ends after).1
      (closeSwitch cfg pending c router routeX y ends after).2.1.x := by
  have hmerged := laySwitchMerge_room hx hled router ends
  unfold closeSwitch
  dsimp only
  generalize laySwitchMerge cfg c router ends (routeX + cfg.spacingX) y = merged at hmerged ⊢
  split
  · exact hbare rfl
  · exact hled
  · split
    · rename_i next others
      split
      · exact hmerged (some next)
      · exact hmerged none
    · split
      · exact hmerged none
      · exact hled

theorem laySwitch_room (h : Room s y c at'.x) (pending : Bool) (r : Requirement) (rest : List Requirement) :
    Room s y (laySwitch cfg pending c at' y r rest).1 (laySwitch cfg pending c at' y r rest).2.1.x := by
  unfold laySwitch
  dsimp only
  generalize routesOf (switchLabels r.text) rest = routes
  obtain ⟨hbare, hled⟩ := openSwitch_room hx hsibling h r (switchLabels r.text) routes
  refine closeSwitch_room hx pending _ (fun hnone => hbare ?_) hled _
  rw [← List.length_eq_zero_iff, ← length_openSwitch_ends cfg y r (switchLabels r.text) routes, hnone]
  rfl

/-! ## Branches -/

theorem layPlain_room (h : Room s y c at'.x) (pending : Bool) (r : Requirement) (rest : List Requirement) :
    Room s y (layPlain cfg pending c at' y r rest).1 (layPlain cfg pending c at' y r rest).2.1.x := by
  unfold layPlain
  split
  · exact laySwitch_room hx hsibling h pending r rest
  · exact laySingle_room hx h r

/-- **A motif goes on where nothing stands.** -/
theorem layStep_room (h : Room s y c at'.x) (pending : Bool) (r : Requirement) (rest : List Requirement) :
    Room s y (layStep cfg pending c at' y r rest).1 (layStep cfg pending c at' y r rest).2.1.x := by
  rcases layStep_cases cfg pending c at' y r rest with ⟨-, -, hstep⟩ | ⟨-, hstep | ⟨rule, detail, hstep⟩⟩
  · rw [hstep]
    exact layParallel_room hx hsibling h r _
  · rw [hstep]
    exact layPlain_room hx hsibling h pending r rest
  · rw [hstep]
    exact layPlain_room hx hsibling (h.note rule detail) pending r rest

/-- and so does a branch, by induction on its motifs -/
theorem layAll_room (h : Room s y c at'.x) (pending : Bool) (rs : List Requirement) :
    Room s y (layAll cfg pending c at' y rs).1 (layAll cfg pending c at' y rs).2.x := by
  induction c, at', rs using layAll.induct cfg pending y with
  | case1 c at' =>
    rw [layAll]
    exact h
  | case2 c at' r rest next ih =>
    rw [layAll]
    exact ih (layStep_room hx hsibling h pending r rest)

end

theorem addTrigger_gains (c : Canvas) (text : String) (x y : Int) : Gains c x y (addTrigger c text x y).2 := by
  have hadd : ∀ short wanted params,
      Gains c x y (c.add ⟨Catalog.fullTag short, wanted, x, y, params, 1, .trigger⟩).2 :=
    fun short wanted params => gains_add c ⟨Catalog.fullTag short, wanted, x, y, params, 1, .trigger⟩
  have hplaced : ∀ lower, Gains c x y (placeTrigger c lower x y).2 := by
    intro lower
    unfold placeTrigger
    dsimp only
    split
    · exact hadd _ _ _
    · split
      · exact (hadd _ _ _).note _ _
      · split
        · exact hadd _ _ _
        · exact hadd _ _ _
  unfold addTrigger
  dsimp only
  exact (hplaced (Text.lower text)).note _ _

theorem addResponse_spread (h : Room s y c at'.x) : Spread s y (addResponse c at' y) := by
  unfold addResponse
  dsimp only
  split
  · exact h.toSpread
  · have hadded := gains_add c ⟨responseType, "Respond to Webhook", at'.x, y, [], 1, .response⟩
    exact h.toSpread.gain (hadded.connect _ _ _ _) h.free le_rfl

end Synthesis

namespace Canvas

/-- no two nodes stand in one place, and the nodes of a branch stand below those of the branches before it -/
structure Apart (c : Canvas) : Prop where
  spots : (c.nodes.map PlacedNode.spot).Nodup
  below : ∀ n ∈ c.nodes, ∀ m ∈ c.nodes, ∀ j k, n.branch = some j → m.branch = some k → j < k → n.y < m.y

/-- the first branches of a plan stand below one another, the next one to begin at the row `y` -/
structure Stacked (cfg : BuildConfig) (number : Nat) (y : Int) (c : Canvas) : Prop extends Apart c where
  numbered : ∀ n ∈ c.nodes, ∃ k < number, n.branch = some k
  start : cfg.startY ≤ y
  rows : ∀ n ∈ c.nodes, cfg.startY ≤ n.y ∧ n.y < y

theorem stacked_empty (cfg : BuildConfig) (sources : Identifiers) : Stacked cfg 0 cfg.startY (.empty sources) where
  spots := by simp [Canvas.empty]
  below := by simp [Canvas.empty]
  numbered := by simp [Canvas.empty]
  start := le_rfl
  rows := by simp [Canvas.empty]

variable {cfg : BuildConfig} {c d : Canvas} {number : Nat} {y : Int}

/-- a branch can begin at the left end of its row -/
theorem Stacked.room (h : Stacked cfg number y c) (branch : Option Nat) (x : Int) :
    Room { c with branch := branch, lowestY := y } y { c with branch := branch, lowestY := y } x where
  spots := h.spots
  nodes := ⟨[], (List.append_nil _).symm, by simp⟩
  branch := rfl
  row := le_rfl
  lowest n hn := (h.rows n hn).2.le
  free n hn := Or.inr (h.rows n hn).2

/-- **A branch that was laid out stands below the branches before it.** -/
theorem Stacked.snoc (h : Stacked cfg number y c) (hgap : 0 < cfg.branchGap)
    (hspread : Spread { c with branch := some number, lowestY := y } y d) :
    Stacked cfg (number + 1) (d.lowestY + cfg.branchGap) d := by
  obtain ⟨added, hnodes, hadded⟩ := hspread.nodes
  have hnodes : d.nodes = c.nodes ++ added := hnodes
  have hmem : ∀ {n}, n ∈ d.nodes → n ∈ c.nodes ∨ n ∈ added := fun hn => List.mem_append.1 (hnodes ▸ hn)
  have hrow := hspread.row
  refine ⟨⟨hspread.spots, fun n hn m hm j k hj hk hjk => ?_⟩, fun n hn => ?_, ?_, fun n hn => ?_⟩
  · rcases hmem hn with hn | hn <;> rcases hmem hm with hm | hm
    · exact h.below n hn m hm j k hj hk hjk
    · exact (h.rows n hn).2.trans_le (hadded m hm).2
    · -- no branch before the new one comes after it
      obtain ⟨k', hk', hnumber⟩ := h.numbered m hm
      cases hk.symm.trans hnumber
      cases hj.symm.trans (hadded n hn).1
      exact absurd hjk (Nat.lt_asymm hk')
    · cases hj.symm.trans (hadded n hn).1
      cases hk.symm.trans (hadded m hm).1
      exact absurd hjk (Nat.lt_irrefl _)
  · rcases hmem hn with hn | hn
    · obtain ⟨k, hk, hnumber⟩ := h.numbered n hn
      exact ⟨k, Nat.lt_succ_of_lt hk, hnumber⟩
    · exact ⟨number, Nat.lt_succ_self number, (hadded n hn).1⟩
  · have := h.start
    omega
  · refine ⟨?_, by have := hspread.lowest n hn; omega⟩
    rcases hmem hn with hn | hn
    · exact (h.rows n hn).1
    · exact h.start.trans (hadded n hn).2

end Canvas

namespace Synthesis

open Canvas

/-- the two nodes that handle errors belong to no branch -/
theorem nodes_addErrorHandling (cfg : BuildConfig) (c : Canvas) :
    ∃ added, (addErrorHandling cfg c).nodes = c.nodes ++ added ∧ (∀ n ∈ added, n.branch = none) ∧
      added.map PlacedNode.spot =
        [(cfg.startX, cfg.startY - 200), (cfg.startX + cfg.spacingX, cfg.startY - 200)] := by
  unfold addErrorHandling
  dsimp only
  generalize hr : NodeRequest.mk (Catalog.fullTag "errorTrigger") _ _ _ _ _ _ = r
  generalize hr' : NodeRequest.mk (Catalog.fullTag "emailSend") _ _ _ _ _ _ = r'
  rw [connect_add, add_name]
  generalize hd : ({ c with branch := none } : Canvas) = d
  generalize he : (d.add r).2.grow r' [⟨(d.newNode r).name, 0, 0⟩] = e
  have hbranch : d.branch = none := hd ▸ rfl
  have hnext : (d.add r).2.branch = none := (branch_add d r).trans hbranch
  refine ⟨[d.newNode r, (d.add r).2.newNode r'], ?_, ?_, hr ▸ hr' ▸ rfl⟩
  · show e.nodes = _
    rw [← he, nodes_grow, nodes_add, ← hd, List.append_assoc]
    rfl
  · generalize (d.add r).2 = d' at hnext ⊢
    exact List.forall_mem_cons.2 ⟨hbranch, List.forall_mem_singleton.2 hnext⟩

section

variable {cfg : BuildConfig} {c : Canvas} {number : Nat} (hx : 0 < cfg.spacingX) (hsibling : 0 < cfg.siblingSpacing)
  (hgap : 0 < cfg.branchGap)

include hx hsibling hgap

/-- one more branch -/
theorem layBranch_stacked {y : Int} (h : Stacked cfg number y c) (b : PlanBranch) :
    Stacked cfg (number + 1) ((layBranch cfg c number b y).lowestY + cfg.branchGap) (layBranch cfg c number b y) := by
  have hright : cfg.startX < cfg.startX + cfg.spacingX := by omega
  have hbegun := h.room (some number) cfg.startX
  refine h.snoc hgap ?_
  unfold layBranch
  dsimp only
  generalize ({ c with branch := some number, lowestY := y } : Canvas) = s at hbegun ⊢
  have htrigger := hbegun.gain (addTrigger_gains s b.triggerType cfg.startX y) hright
  generalize addTrigger s b.triggerType cfg.startX y = out at htrigger ⊢
  have hfirst : Room s y out.2 (Cursor.mk out.1 (cfg.startX + cfg.spacingX)).x := htrigger
  have hall := layAll_room hx hsibling hfirst (owesResponse b) b.requirements
  generalize layAll cfg (owesResponse b) out.2 ⟨out.1, cfg.startX + cfg.spacingX⟩ y b.requirements = laid at hall ⊢
  split
  · exact addResponse_spread hall
  · exact hall.toSpread

/-- all branches, by induction -/
theorem layBranches_stacked {y : Int} (h : Stacked cfg number y c) (bs : List PlanBranch) :
    ∃ y', Stacked cfg (number + bs.length) y' (layBranches cfg c number y bs) := by
  induction bs generalizing c number y with
  | nil => exact ⟨y, h⟩
  | cons b rest ih =>
    obtain ⟨y', hrest⟩ := ih (layBranch_stacked hx hsibling hgap h b)
    rw [Nat.add_assoc, Nat.add_comm 1] at hrest
    exact ⟨y', hrest⟩

omit hsibling hgap in
/-- errors are handled above all branches, in two columns -/
theorem addErrorHandling_apart {y : Int} (h : Stacked cfg number y c) : Apart (addErrorHandling cfg c) := by
  have habove : cfg.startY - 200 < cfg.startY := by omega
  obtain ⟨added, hnodes, hnone, hspots⟩ := nodes_addErrorHandling cfg c
  constructor
  · rw [hnodes, List.map_append, hspots, List.nodup_append]
    refine ⟨h.spots, by simp [hx.ne'], fun a ha b hb => ?_⟩
    obtain ⟨n, hn, rfl⟩ := List.mem_map.1 ha
    rintro rfl
    have hrow := (h.rows n hn).1
    simp only [PlacedNode.spot, List.mem_cons, Prod.mk.injEq, List.not_mem_nil, or_false] at hb
    omega
  · rw [hnodes]
    have hbranched : ∀ n ∈ c.nodes ++ added, ∀ k, n.branch = some k → n ∈ c.nodes := by
      intro n hn k hk
      refine (List.mem_append.1 hn).resolve_right fun hhandling => ?_
      cases (hnone n hhandling).symm.trans hk
    intro n hn m hm j k hj hk
    exact h.below n (hbranched n hn j hj) m (hbranched m hm k hk) j k hj hk

theorem apart_lay (sources : Identifiers) (p : Plan) : Apart (lay cfg sources p) := by
  obtain ⟨y, hstacked⟩ := layBranches_stacked hx hsibling hgap (stacked_empty cfg sources) p.branches
  unfold lay
  dsimp only
  split
  · exact addErrorHandling_apart hx hstacked
  · exact hstacked.toApart

end

/-- **No two nodes of a plan overlap.** In its document all positions are different, those of the nodes that handle
errors included, and the nodes of a branch stand strictly below those of the branches before it. -/
theorem build_apart {cfg : BuildConfig} {sources : Identifiers} {p : Plan} {built : Built} (hx : 0 < cfg.spacingX)
    (hsibling : 0 < cfg.siblingSpacing) (hgap : 0 < cfg.branchGap) (h : build cfg sources p = .ok built) :
    ((Document.nodesIn (.object built.document)).map fun n => n.get "position").Nodup ∧
      ∃ sources', Shows built.document (lay cfg sources' p) ∧ Apart (lay cfg sources' p) := by
  obtain ⟨sources', hshows⟩ := build_shows h
  have hapart := apart_lay hx hsibling hgap sources' p
  have hposition : ((lay cfg sources' p).nodes.map PlacedNode.toNode).map (fun n => n.get "position") =
      ((lay cfg sources' p).nodes.map PlacedNode.spot).map fun at' => Value.list [.int at'.1, .int at'.2] := by
    rw [List.map_map, List.map_map]
    exact List.map_congr_left fun n _ => n.position_toNode
  refine ⟨?_, sources', hshows, hapart⟩
  rw [show Document.nodesIn (.object built.document) = _ from hshows.nodesOf, hposition]
  refine hapart.spots.map fun a b hab => ?_
  simpa [Prod.ext_iff] using hab

theorem build_apart_ordersPlan : (0 < BuildConfig.standard.spacingX ∧ 0 < BuildConfig.standard.siblingSpacing ∧
      0 < BuildConfig.standard.branchGap) ∧
    ∃ built, build .standard ordersSources ordersPlan = .ok built ∧
      ((Document.nodesIn (.object built.document)).map fun n => n.get "position").Nodup ∧
      ∃ sources', Shows built.document (lay .standard sources' ordersPlan) ∧
        Apart (lay .standard sources' ordersPlan) := by
  have hspacing : 0 < BuildConfig.standard.spacingX ∧ 0 < BuildConfig.standard.siblingSpacing ∧
      0 < BuildConfig.standard.branchGap := by decide
  obtain ⟨built, hbuilt, -⟩ := exists_build_ordersPlan
  exact ⟨hspacing, built, hbuilt, build_apart hspacing.1 hspacing.2.1 hspacing.2.2 hbuilt⟩

end Synthesis

end WorkflowGraph
