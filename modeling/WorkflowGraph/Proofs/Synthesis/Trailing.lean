import WorkflowGraph.Proofs.Synthesis.Closed
/-
Nodes that nothing follows. While a branch is laid out, these are known exactly: a node that is placed is one of them,
and those that lead to it are so no more. So every motif ends with its last node alone, apart from a switch whose routes
nothing merges, which ends with these.

- `lastSwitch?`: the switch that a list of requirements ends with, if nothing merges its routes.
- `Trailing`: the nodes of a branch so far, and those of them that nothing follows.
- `layStep_ended`: how a motif ends.
- `layAll_ended`: how the motifs of a branch end.
-/
namespace WorkflowGraph

namespace Synthesis

/-! ## What a branch ends with -/

/-- a step that fans out into rows -/
def fansOut (r : Requirement) (rest : List Requirement) : Bool :=
  r.isParallel && !rest.isEmpty && decide (2 ≤ (rowsOf r rest).rows.length)

/-- what is left of the requirements after the routes of a switch: two routes take the merge that comes next -/
def afterRoutes (routes after : List Requirement) : List Requirement :=
  match routes, after with
  | _ :: _ :: _, next :: others => if next.isMerge then others else next :: others
  | _, _ => after

/-- what the motif of a requirement leaves of those after it -/
def afterStep (r : Requirement) (rest : List Requirement) : List Requirement :=
  if fansOut r rest then (rowsOf r rest).rest
  else if r.isSwitch then
    let routes := routesOf (switchLabels r.text) rest
    afterRoutes routes (rest.drop routes.length)
  else rest

/-- the switch of a requirement with its routes, when there are two at least and nothing comes after them -/
def openSwitch? (r : Requirement) (rest : List Requirement) : Option (Requirement × List Requirement) :=
  let routes := routesOf (switchLabels r.text) rest
  if fansOut r rest = false ∧ r.isSwitch = true ∧ 2 ≤ routes.length ∧ rest.drop routes.length = [] then
    some (r, routes)
  else none

theorem afterRoutes_suffix (routes after : List Requirement) : afterRoutes routes after <:+ after := by
  unfold afterRoutes
  split
  · split
    · exact List.suffix_cons _ _
    · exact List.suffix_refl _
  · exact List.suffix_refl _

theorem afterStep_suffix (r : Requirement) (rest : List Requirement) : afterStep r rest <:+ rest := by
  unfold afterStep
  split
  · exact rowsOf_rest_suffix r rest
  · split
    · exact (afterRoutes_suffix _ _).trans (List.drop_suffix _ _)
    · exact List.suffix_refl _

/-- the switch that a branch ends with and its routes, if nothing merges them -/
def lastSwitch? : List Requirement → Option (Requirement × List Requirement)
  | [] => none
  | r :: rest => (openSwitch? r rest).or (lastSwitch? (afterStep r rest))
  termination_by rs => rs.length
  decreasing_by exact Nat.lt_succ_of_le (afterStep_suffix r rest).length_le

theorem openSwitch?_eq_some {r q : Requirement} {rest routes : List Requirement}
    (h : openSwitch? r rest = some (q, routes)) :
    fansOut r rest = false ∧ r.isSwitch = true ∧ 2 ≤ routes.length ∧ q = r ∧ routes = rest ∧
      routesOf (switchLabels r.text) rest = routes := by
  unfold openSwitch? at h
  dsimp only at h
  obtain ⟨⟨hplain, hswitch, hmany, hnone⟩, hpair⟩ := Option.ite_none_right_eq_some.1 h
  cases hpair
  have hall := routesOf_append_drop (switchLabels r.text) rest
  rw [hnone, List.append_nil] at hall
  exact ⟨hplain, hswitch, hmany, rfl, hall, rfl⟩

/-- the last switch stands before its routes, which are two at least, and nothing stands behind these -/
theorem lastSwitch?_eq_some {rs routes : List Requirement} {q : Requirement} (h : lastSwitch? rs = some (q, routes)) :
    q.isSwitch = true ∧ 2 ≤ routes.length ∧ q :: routes <:+ rs := by
  induction rs using lastSwitch?.induct with
  | case1 =>
    rw [lastSwitch?] at h
    cases h
  | case2 r rest ih =>
    rw [lastSwitch?] at h
    rcases Option.or_eq_some_iff.1 h with hopen | ⟨-, hlater⟩
    · obtain ⟨-, hswitch, hmany, rfl, rfl, -⟩ := openSwitch?_eq_some hopen
      exact ⟨hswitch, hmany, List.suffix_refl _⟩
    · obtain ⟨hswitch, hmany, hsuffix⟩ := ih hlater
      exact ⟨hswitch, hmany, (hsuffix.trans (afterStep_suffix r rest)).trans (List.suffix_cons r rest)⟩

/-- a switch that is left open is the last motif -/
theorem afterStep_of_open {r : Requirement} {rest : List Requirement} {q : Requirement × List Requirement}
    (h : openSwitch? r rest = some q) : afterStep r rest = [] := by
  obtain ⟨q, routes⟩ := q
  obtain ⟨hplain, hswitch, -, -, rfl, hall⟩ := openSwitch?_eq_some h
  unfold afterStep
  rw [hplain, if_neg Bool.false_ne_true, if_pos hswitch]
  dsimp only
  rw [hall, List.drop_length]
  unfold afterRoutes
  split
  · rename_i heq
    cases heq
  · rfl

end Synthesis

namespace Canvas

/-! ## Edges between the nodes of a branch -/

theorem joined_grow (c : Canvas) (r : NodeRequest) (feeds : List Feed) (a t : String) :
    (c.grow r feeds).Joined a t ↔ c.Joined a t ∨ ((c.newNode r).name = t ∧ ∃ f ∈ feeds, f.source = a) := by
  rw [Joined, connections_grow, Connections.joins_feed]
  rfl

theorem joined_openPorts (c : Canvas) (source : String) (count : Nat) (a t : String) :
    (c.openPorts source count).Joined a t ↔ c.Joined a t := Connections.joins_ensurePorts

/-- a branch is being laid out on a canvas: it has the nodes `body`, and those of them that have the names in `tips` and
no others lead nowhere; nothing has changed for the nodes before it -/
structure Trailing (s : Canvas) (body : List PlacedNode) (tips : List String) (c : Canvas) : Prop where
  sound : Sound c
  nodes : c.nodes = s.nodes ++ body
  branch : c.branch = s.branch
  mine : ∀ n ∈ body, n.branch = s.branch
  grounded : ∀ a t, c.Joined a t → c.Places a
  same : ∀ n ∈ s.nodes, ∀ t, c.Joined n.name t ↔ s.Joined n.name t
  placed : ∀ a ∈ tips, a ∈ body.map (·.name)
  sinks : ∀ n ∈ body, (∀ t, ¬ c.Joined n.name t) ↔ n.name ∈ tips

variable {s c : Canvas} {body : List PlacedNode} {tips tips' : List String}

section

variable (h : Trailing s body tips c)

include h

theorem Trailing.mem {n : PlacedNode} (hn : n ∈ body) : n ∈ c.nodes := h.nodes ▸ List.mem_append_right _ hn

theorem Trailing.congr (hsame : ∀ a, a ∈ tips' ↔ a ∈ tips) : Trailing s body tips' c :=
  { h with
    placed := fun a ha => h.placed a ((hsame a).1 ha)
    sinks := fun n hn => (h.sinks n hn).trans (hsame n.name).symm }

theorem Trailing.note (rule : String) (detail : List (String × Value)) : Trailing s body tips (c.note rule detail) :=
  ⟨h.sound.step (.noted c rule detail), h.nodes, h.branch, h.mine, h.grounded, h.same, h.placed, h.sinks⟩

theorem Trailing.openPorts {source : String} (hsource : c.Places source) (count : Nat) :
    Trailing s body tips (c.openPorts source count) where
  sound := h.sound.step (.opened c source count hsource)
  nodes := h.nodes
  branch := h.branch
  mine := h.mine
  grounded a t hjoined := h.grounded a t ((joined_openPorts ..).1 hjoined)
  same n hn t := (joined_openPorts ..).trans (h.same n hn t)
  placed := h.placed
  sinks n hn := (forall_congr' fun _ => not_congr (joined_openPorts ..)).trans (h.sinks n hn)

theorem Trailing.places {a : String} (ha : a ∈ body.map (·.name)) : c.Places a := by
  obtain ⟨n, hn, rfl⟩ := List.mem_map.1 ha
  exact ⟨n, h.mem hn, rfl⟩

/-- a new node has none of the names of the branch -/
theorem Trailing.new_not_mem (r : NodeRequest) : (c.newNode r).name ∉ body.map (·.name) := by
  intro ha
  obtain ⟨n, hn, hname⟩ := h.places ha
  exact h.sound.new r n hn hname

/-- nodes before the branch have other names than its nodes -/
theorem Trailing.name_not_mem {n : PlacedNode} (hn : n ∈ s.nodes) : n.name ∉ body.map (·.name) := by
  have hdistinct := h.sound.distinct
  rw [h.nodes, List.map_append] at hdistinct
  exact fun ha => (List.nodup_append.1 hdistinct).2.2 _ (List.mem_map_of_mem hn) _ ha rfl

/-- **A node that is placed leads nowhere yet, and the nodes that lead to it do so now.** -/
theorem Trailing.grow {r : NodeRequest} {feeds : List Feed} (hfeeds : ∀ f ∈ feeds, f.source ∈ body.map (·.name))
    (htips : ∀ a, a ∈ tips' ↔ a ∈ tips ∧ ∀ f ∈ feeds, f.source ≠ a) :
    Trailing s (body ++ [c.newNode r]) ((c.newNode r).name :: tips') (c.grow r feeds) := by
  have hnew := h.new_not_mem r
  refine
    { sound := sound_of_leads (leads_grow fun f hf => h.places (hfeeds f hf)) h.sound
      nodes := by rw [nodes_grow, h.nodes, List.append_assoc]
      branch := (branch_grow c r feeds).trans h.branch
      mine := List.forall_mem_append.2 ⟨h.mine, List.forall_mem_singleton.2 h.branch⟩
      grounded := fun a t hjoined => ?_
      same := fun n hn t => ?_
      placed := ?_
      sinks := ?_ }
  · have hgrown : c.Places a → (c.grow r feeds).Places a := fun ⟨n, hn, hname⟩ => ⟨n, by simp [hn], hname⟩
    rcases (joined_grow ..).1 hjoined with hold | ⟨-, f, hf, rfl⟩
    · exact hgrown (h.grounded a t hold)
    · exact hgrown (h.places (hfeeds f hf))
  · rw [joined_grow, h.same n hn t]
    refine or_iff_left ?_
    rintro ⟨-, f, hf, hsource⟩
    exact h.name_not_mem hn (hsource ▸ hfeeds f hf)
  · rw [List.map_append]
    refine List.forall_mem_cons.2 ⟨List.mem_append_right _ List.mem_cons_self, fun a ha => ?_⟩
    exact List.mem_append_left _ (h.placed a ((htips a).1 ha).1)
  · refine List.forall_mem_append.2 ⟨fun n hn => ?_, List.forall_mem_singleton.2 ?_⟩
    · have hother : n.name ≠ (c.newNode r).name := fun heq => hnew (heq ▸ List.mem_map_of_mem hn)
      rw [List.mem_cons, or_iff_right hother, htips, ← h.sinks n hn]
      simp only [joined_grow, not_or, forall_and]
      refine and_congr Iff.rfl ?_
      constructor
      · exact fun hnone f hf hsource => hnone _ ⟨rfl, f, hf, hsource⟩
      · rintro hnone t ⟨-, f, hf, hsource⟩
        exact hnone f hf hsource
    · -- no edge leaves a node with a new name
      refine iff_of_true (fun t hjoined => ?_) List.mem_cons_self
      rcases (joined_grow ..).1 hjoined with hold | ⟨-, f, hf, hsource⟩
      · obtain ⟨n, hn, hname⟩ := h.grounded _ _ hold
        exact h.sound.new r n hn hname
      · exact hnew (hsource ▸ hfeeds f hf)

/-- a requirement placed behind a node of the branch -/
theorem Trailing.place (cfg : BuildConfig) {f : Feed} (hf : f.source ∈ body.map (·.name)) (r : Requirement) (x y : Int)
    (htips : ∀ a, a ∈ tips' ↔ a ∈ tips ∧ a ≠ f.source) :
    ∃ m : PlacedNode, m.origin = .step r ∧ m.name = (c.place cfg r x y).1 ∧ m.name ∉ body.map (·.name) ∧
      Trailing s (body ++ [m]) (m.name :: tips')
        ((c.place cfg r x y).2.connect f.source f.port (c.place cfg r x y).1 f.index) ∧
      ∀ a t, ((c.place cfg r x y).2.connect f.source f.port (c.place cfg r x y).1 f.index).Joined a t ↔
        c.Joined a t ∨ (m.name = t ∧ f.source = a) := by
  have hadd : ∀ {d : Canvas} {type : String}, Trailing s body tips d → d.Joined = c.Joined →
      ∃ m : PlacedNode, m.origin = .step r ∧ m.name = (d.add ⟨type, r.name, x, y, [], 1, .step r⟩).1 ∧
        m.name ∉ body.map (·.name) ∧
        Trailing s (body ++ [m]) (m.name :: tips') ((d.add ⟨type, r.name, x, y, [], 1, .step r⟩).2.connect f.source
          f.port (d.add ⟨type, r.name, x, y, [], 1, .step r⟩).1 f.index) ∧
        ∀ a t, ((d.add ⟨type, r.name, x, y, [], 1, .step r⟩).2.connect f.source f.port
          (d.add ⟨type, r.name, x, y, [], 1, .step r⟩).1 f.index).Joined a t ↔
          c.Joined a t ∨ (m.name = t ∧ f.source = a) := by
    intro d type hd hjoined
    rw [connect_add, add_name]
    refine ⟨d.newNode ⟨type, r.name, x, y, [], 1, .step r⟩, rfl, rfl, hd.new_not_mem _, ?_, fun a t => ?_⟩
    · refine hd.grow (List.forall_mem_singleton.2 hf) fun a => ?_
      rw [htips, List.forall_mem_singleton, ne_comm]
    · rw [joined_grow, hjoined]
      simp
  unfold Canvas.place
  split
  · exact hadd (h.note _ _) rfl
  · exact hadd h rfl

/-- rows or routes joined in a node -/
theorem Trailing.merge {ends : List String} (hends : ∀ a, a ∈ ends ↔ a ∈ tips) (req : Option Requirement)
    (wanted : String) (x y : Int) (mode : String) (typeVersion : Nat) :
    ∃ m : PlacedNode, m.name = (c.addMerge req wanted x y mode typeVersion).1 ∧
      Trailing s (body ++ [m]) [m.name] ((c.addMerge req wanted x y mode typeVersion).2.connectEnds
        (c.addMerge req wanted x y mode typeVersion).1 0 ends) := by
  obtain ⟨r, hr⟩ : ∃ r, c.addMerge req wanted x y mode typeVersion = c.add r := by
    cases req <;> exact ⟨_, rfl⟩
  rw [hr, connectEnds_eq_feed, feed_add, add_name]
  refine ⟨c.newNode r, rfl, h.grow (fun f hf => ?_) fun a => ?_⟩
  · exact h.placed _ ((hends _).1 (source_mem_of_mem_mergeFeeds hf).1)
  · refine iff_of_false List.not_mem_nil ?_
    rintro ⟨ha, hnone⟩
    obtain ⟨f, hf, hsource, -⟩ := exists_mem_mergeFeeds (k := 0) ((hends a).2 ha)
    exact hnone f hf hsource

end

/-- a node that leads on is none of those that lead nowhere any more -/
theorem mem_iff_spent {name : String} (h : name ∉ tips) : ∀ a, a ∈ tips ↔ a ∈ name :: tips ∧ a ≠ name := by
  intro a
  constructor
  · exact fun ha => ⟨List.mem_cons_of_mem _ ha, fun heq => h (heq ▸ ha)⟩
  · exact fun ⟨ha, hother⟩ => (List.mem_cons.1 ha).resolve_left hother

/-- a node that leads on already stays away from those that lead nowhere -/
theorem mem_iff_unspent {name : String} (h : name ∉ tips) : ∀ a, a ∈ tips ↔ a ∈ tips ∧ a ≠ name :=
  fun a => (and_iff_left_of_imp fun ha (heq : a = name) => h (heq ▸ ha)).symm

/-- the branch goes on from its last node, and only that leads nowhere -/
structure Stops (s : Canvas) (body : List PlacedNode) (name : String) (c : Canvas) : Prop extends
    Trailing s body [name] c where
  last : ∃ before n, body = before ++ [n] ∧ n.name = name

theorem stops_of_new {m : PlacedNode} (h : Trailing s (body ++ [m]) [m.name] c) : Stops s (body ++ [m]) m.name c :=
  ⟨h, body, m, rfl, rfl⟩

theorem Stops.note {name : String} (h : Stops s body name c) (rule : String) (detail : List (String × Value)) :
    Stops s body name (c.note rule detail) :=
  ⟨h.toTrailing.note rule detail, h.last⟩

theorem Stops.mem {name : String} (h : Stops s body name c) : name ∈ body.map (·.name) :=
  h.placed name List.mem_cons_self

/-- the branch ends with a switch and its routes, and these lead nowhere -/
structure Splits (s : Canvas) (body : List PlacedNode) (q : Requirement) (routes : List Requirement) (c : Canvas) :
    Prop where
  ends : ∃ before router ends, body = before ++ router :: ends ∧ router.origin = .step q ∧
    ends.map (·.origin) = routes.map Origin.step ∧ Trailing s body (ends.map (·.name)) c ∧
    ∀ m ∈ ends, c.Joined router.name m.name

end Canvas

namespace Synthesis

open Canvas

variable (cfg : BuildConfig) {s c : Canvas} {body : List PlacedNode} {tips loose : List String} {at' : Cursor}

/-! ## Rows -/

/-- no row is empty -/
theorem scanRows_ne_nil {rows : List (List Requirement)} (h : ∀ row ∈ rows, row ≠ []) (seen : List String)
    (rs : List Requirement) : ∀ row ∈ (scanRows rows seen rs).rows, row ≠ [] := by
  have hextend : ∀ {rows : List (List Requirement)} (r : Requirement), (∀ row ∈ rows, row ≠ []) →
      ∀ row ∈ extendLast rows r, row ≠ [] := by
    intro rows r
    induction rows with
    | nil => simp [extendLast]
    | cons row rows ih =>
      intro h
      rw [List.forall_mem_cons] at h
      cases rows with
      | nil => simp [extendLast]
      | cons row' rows => exact List.forall_mem_cons.2 ⟨h.1, ih h.2⟩
  induction rs generalizing rows seen with
  | nil => exact h
  | cons r rest ih =>
    unfold scanRows
    split
    · exact h
    · split
      · exact h
      · split
        · exact ih (List.forall_mem_append.2 ⟨h, by simp⟩) _
        · split
          · exact h
          · exact ih (hextend r h) seen

theorem rowsOf_ne_nil (head : Requirement) (rest : List Requirement) : ∀ row ∈ (rowsOf head rest).rows, row ≠ [] := by
  unfold rowsOf
  split <;> exact scanRows_ne_nil (by simp) _ _

/-- a row leaves its last node, and takes the node that it starts from off -/
theorem layRow_trailing (h : Trailing s body tips c) (hstart : at'.current ∈ body.map (·.name))
    (hloose : ∀ a, a ∈ loose ↔ a ∈ tips ∧ a ≠ at'.current) (y : Int) {rs : List Requirement} (hne : rs ≠ []) :
    ∃ added, (layRow cfg c at' y rs).2.current ∉ body.map (·.name) ∧
      Trailing s (body ++ added) ((layRow cfg c at' y rs).2.current :: loose) (layRow cfg c at' y rs).1 := by
  induction rs generalizing c at' body tips with
  | nil => exact absurd rfl hne
  | cons r rest ih =>
    obtain ⟨m, -, hname, hnew, hplaced, -⟩ := h.place cfg (f := ⟨at'.current, 0, 0⟩) hstart r at'.x y hloose
    rw [layRow]
    dsimp only at hplaced ⊢
    rw [← hname] at hplaced ⊢
    by_cases hlast : rest = []
    · rw [hlast, layRow]
      exact ⟨[m], hnew, hplaced⟩
    · have hfrom := mem_iff_spent fun ha => hnew (h.placed _ ((hloose m.name).1 ha).1)
      have hnext : (Cursor.mk m.name (at'.x + cfg.spacingX)).current ∈ (body ++ [m]).map (·.name) := by simp
      obtain ⟨added, hend, hrow⟩ := ih hplaced hnext hfrom hlast
      rw [List.append_assoc] at hrow
      exact ⟨_, fun hmem => hend (by rw [List.map_append]; exact List.mem_append_left _ hmem), hrow⟩

/-- rows from a node that leads on already leave their ends in addition -/
theorem layRows_trailing (h : Trailing s body tips c) (hstart : at'.current ∈ body.map (·.name))
    (hled : at'.current ∉ tips) (y : Int) {rows : List (List Requirement)} (hne : ∀ row ∈ rows, row ≠ []) :
    ∃ added, Trailing s (body ++ added) ((layRows cfg c at' y rows).2.1 ++ tips) (layRows cfg c at' y rows).1 := by
  induction rows generalizing c y body tips with
  | nil => exact ⟨[], by rwa [List.append_nil]⟩
  | cons row rows ih =>
    rw [List.forall_mem_cons] at hne
    obtain ⟨added, hend, hrow⟩ := layRow_trailing cfg h hstart (mem_iff_unspent hled) y hne.1
    rw [layRows]
    dsimp only
    generalize layRow cfg c at' y row = out at hend hrow ⊢
    have hled' : at'.current ∉ out.2.current :: tips := by
      rw [List.mem_cons, not_or]
      exact ⟨fun heq => hend (heq ▸ hstart), hled⟩
    obtain ⟨others, hrest⟩ := ih hrow (by rw [List.map_append]; exact List.mem_append_left _ hstart) hled'
      (y + cfg.siblingSpacing) hne.2
    rw [List.append_assoc] at hrest
    exact ⟨_, hrest.congr fun a => by simp [or_left_comm]⟩

theorem layMergedRows_stops {start : Cursor} (h : Stops s body start.current c) (y : Int) (head : Requirement)
    {scan : RowScan} (hrows : scan.rows ≠ []) (hne : ∀ row ∈ scan.rows, row ≠ []) :
    ∃ body', Stops s body' (layMergedRows cfg c start y head scan).2.current
      (layMergedRows cfg c start y head scan).1 := by
  obtain ⟨row, rows, hcons⟩ := List.exists_cons_of_ne_nil hrows
  rw [hcons, List.forall_mem_cons] at hne
  -- the first row takes the node that all start from off, the others leave it alone
  obtain ⟨first, hend, hrow⟩ := layRow_trailing cfg h.toTrailing h.mem (mem_iff_spent List.not_mem_nil) y hne.1
  unfold layMergedRows
  rw [hcons, layRows]
  dsimp only
  generalize layRow cfg c start y row = out at hend hrow ⊢
  have hled : start.current ∉ [out.2.current] := by
    rw [List.mem_singleton]
    exact fun heq => hend (heq ▸ h.mem)
  obtain ⟨others, hrest⟩ := layRows_trailing cfg hrow (by rw [List.map_append]; exact List.mem_append_left _ h.mem)
    hled (y + cfg.siblingSpacing) hne.2
  generalize layRows cfg out.1 start (y + cfg.siblingSpacing) rows = out' at hrest ⊢
  have hends : ∀ a, a ∈ out.2.current :: out'.2.1 ↔ a ∈ out'.2.1 ++ [out.2.current] := by simp [or_comm]
  obtain ⟨m, hname, hmerged⟩ := hrest.merge hends scan.merge
    "Merge Results" (max out.2.x out'.2.2) y "append" 1
  rw [← hname] at hmerged ⊢
  exact ⟨_, (stops_of_new hmerged).note _ _⟩

/-- one requirement behind the last node -/
theorem laySingle_stops (h : Stops s body at'.current c) (y : Int) (r : Requirement) :
    ∃ body', Stops s body' (laySingle cfg c at' y r).2.current (laySingle cfg c at' y r).1 := by
  obtain ⟨m, -, hname, -, hplaced, -⟩ := h.place cfg (f := ⟨at'.current, 0, 0⟩) h.mem r at'.x y
    (mem_iff_spent List.not_mem_nil)
  unfold laySingle
  dsimp only at hplaced ⊢
  rw [← hname] at hplaced ⊢
  exact ⟨_, stops_of_new hplaced⟩

theorem layParallel_stops (h : Stops s body at'.current c) (y : Int) (head : Requirement) (rest : List Requirement)
    (hrows : (rowsOf head rest).rows ≠ []) :
    ∃ body', Stops s body' (layParallel cfg c at' y head (rowsOf head rest)).2.current
      (layParallel cfg c at' y head (rowsOf head rest)).1 := by
  have hne := rowsOf_ne_nil head rest
  unfold layParallel
  split
  · exact layMergedRows_stops cfg h y head hrows hne
  · obtain ⟨body', hsingle⟩ := laySingle_stops cfg h y head
    exact layMergedRows_stops cfg hsingle y head hrows hne

/-! ## Switches -/

/-- the routes of a switch lead nowhere, in addition to what did so before apart from the switch -/
theorem layRoutes_trailing (h : Trailing s body tips c) {router : String} (hrouter : router ∈ body.map (·.name))
    (hloose : ∀ a, a ∈ loose ↔ a ∈ tips ∧ a ≠ router) (x y : Int) (k : Nat) {rs : List Requirement} (hne : rs ≠ []) :
    ∃ added : List PlacedNode, added.map (·.origin) = rs.map Origin.step ∧
      added.map (·.name) = (layRoutes cfg c router x y k rs).2 ∧
      Trailing s (body ++ added) (added.map (·.name) ++ loose) (layRoutes cfg c router x y k rs).1 ∧
      (∀ a t, c.Joined a t → (layRoutes cfg c router x y k rs).1.Joined a t) ∧
      ∀ m ∈ added, (layRoutes cfg c router x y k rs).1.Joined router m.name := by
  induction rs generalizing c body tips loose k with
  | nil => exact absurd rfl hne
  | cons r rest ih =>
    obtain ⟨m, horigin, hname, hnew, hplaced, hjoined⟩ := h.place cfg (f := ⟨router, k, 0⟩) hrouter r x
      (y + k * cfg.siblingSpacing) hloose
    rw [layRoutes]
    dsimp only at hjoined hplaced ⊢
    by_cases hlast : rest = []
    · rw [hlast, layRoutes]
      refine ⟨[m], by rw [List.map_singleton, horigin]; rfl, by rw [List.map_singleton, hname], hplaced, ?_, ?_⟩
      · exact fun a t hat => (hjoined a t).2 (Or.inl hat)
      · exact List.forall_mem_singleton.2 ((hjoined _ _).2 (Or.inr ⟨rfl, rfl⟩))
    · have hled : router ∉ m.name :: loose := by
        rw [List.mem_cons, not_or]
        exact ⟨fun heq => hnew (heq ▸ hrouter), fun ha => ((hloose router).1 ha).2 rfl⟩
      have hrouter' : router ∈ (body ++ [m]).map (·.name) := by
        rw [List.map_append]
        exact List.mem_append_left _ hrouter
      obtain ⟨added, horigins, hnames, hrest, hkept, hadded⟩ := ih hplaced hrouter' (mem_iff_unspent hled) (k + 1)
        hlast
      rw [List.append_assoc, List.singleton_append] at hrest
      refine ⟨m :: added, by rw [List.map_cons, List.map_cons, horigin, horigins], ?_, hrest.congr fun a => ?_, ?_, ?_⟩
      · rw [List.map_cons, hname, hnames]
      · simp [or_left_comm]
      · exact fun a t hat => hkept a t ((hjoined a t).2 (Or.inl hat))
      · exact List.forall_mem_cons.2 ⟨hkept _ _ ((hjoined _ _).2 (Or.inr ⟨rfl, rfl⟩)), hadded⟩

/-- a switch has been opened with its routes: if it has any, these lead nowhere, or else it does itself -/
structure Opened (s : Canvas) (body : List PlacedNode) (q : Requirement) (routes : List Requirement) (o : OpenSwitch)
    (router : PlacedNode) (added : List PlacedNode) : Prop where
  origin : router.origin = .step q
  name : router.name = o.router
  origins : added.map (·.origin) = routes.map Origin.step
  names : added.map (·.name) = o.ends
  bare : added = [] → Trailing s (body ++ [router]) [router.name] o.canvas
  led : added ≠ [] → Trailing s (body ++ router :: added) (added.map (·.name)) o.canvas
  joined : ∀ m ∈ added, o.canvas.Joined router.name m.name

theorem openSwitch_opened_trailing (h : Stops s body at'.current c) (y : Int) (r : Requirement)
    (inferred : List String) (routes : List Requirement) :
    ∃ router added, Opened s body r routes (openSwitch cfg c at' y r inferred routes) router added := by
  unfold openSwitch
  dsimp only
  generalize (if routes.isEmpty then inferred else inferred.take routes.length) = labels
  generalize hq : NodeRequest.mk (Catalog.fullTag "switch") r.name at'.x y (switchRules labels) 1 (.step r) = q
  rw [connect_add, add_name]
  have hgrown : Trailing s (body ++ [c.newNode q]) [(c.newNode q).name] (c.grow q [⟨at'.current, 0, 0⟩]) := by
    refine h.toTrailing.grow (List.forall_mem_singleton.2 h.mem) fun a => ?_
    simp [ne_comm]
  have hrouter : (c.newNode q).name ∈ (body ++ [c.newNode q]).map (·.name) := by simp
  have hopened : ∀ rule detail, Trailing s (body ++ [c.newNode q]) [(c.newNode q).name]
      (((c.grow q [⟨at'.current, 0, 0⟩]).openPorts (c.newNode q).name labels.length).note rule detail) :=
    fun rule detail => (hgrown.openPorts (hgrown.places hrouter) labels.length).note rule detail
  generalize hnoted : Canvas.note _ "switch" _ = opened
  have hopened : Trailing s (body ++ [c.newNode q]) [(c.newNode q).name] opened := hnoted ▸ hopened _ _
  have horigin : (c.newNode q).origin = .step r := hq ▸ rfl
  cases routes with
  | nil => exact ⟨c.newNode q, [], horigin, rfl, rfl, rfl, fun _ => hopened, fun hne => absurd rfl hne, by simp⟩
  | cons r' rest =>
    obtain ⟨added, horigins, hnames, hled, -, hadded⟩ := layRoutes_trailing cfg hopened hrouter
      (mem_iff_spent List.not_mem_nil) (at'.x + cfg.spacingX) y 0 (List.cons_ne_nil r' rest)
    rw [List.append_nil, List.append_assoc, List.singleton_append] at hled
    have hsome : added ≠ [] := by
      rintro rfl
      cases horigins
    exact ⟨c.newNode q, added, horigin, rfl, horigins, hnames, fun hnone => absurd hnone hsome, fun _ => hled, hadded⟩

/-- how a part of a branch ends: with the node that the branch goes on from, or with the switch that nothing merges,
unless an answer is pending -/
inductive Ended (s : Canvas) (pending : Bool) (last : Option (Requirement × List Requirement)) (c : Canvas)
    (name : String) : Prop
  | stopped {body : List PlacedNode} (hlast : pending = true ∨ last = none) (h : Stops s body name c)
  | split {body : List PlacedNode} {q : Requirement} {routes : List Requirement} (hpending : pending = false)
      (hlast : last = some (q, routes)) (h : Splits s body q routes c)

/-- while an answer is pending a branch has one end -/
theorem Ended.of_pending {last last' : Option (Requirement × List Requirement)} {name : String}
    (h : Ended s true last c name) : Ended s true last' c name := by
  cases h with
  | stopped _ h => exact .stopped (Or.inl rfl) h
  | split hpending _ _ => cases hpending

theorem laySwitchMerge_stops (router : String) {ends : List String} (h : Trailing s body ends c) (x y : Int)
    (req : Option Requirement) :
    ∃ body', Stops s body' (laySwitchMerge cfg c router ends x y req).2.current
      (laySwitchMerge cfg c router ends x y req).1 := by
  obtain ⟨m, hname, hmerged⟩ := h.merge (fun _ => Iff.rfl) req ("Merge " ++ router ++ " Results") x y "chooseBranch" 2
  unfold laySwitchMerge
  dsimp only
  rw [← hname] at hmerged ⊢
  exact ⟨_, (stops_of_new hmerged).note _ _⟩

/-- a switch is closed: two routes are merged, unless nothing comes after them -/
theorem closeSwitch_ended {q : Requirement} {routes : List Requirement} {o : OpenSwitch} {router : PlacedNode}
    {added : List PlacedNode} (h : Opened s body q routes o router added) (pending : Bool) (routeX y : Int)
    (after : List Requirement) :
    Ended s pending (if 2 ≤ routes.length ∧ after = [] then some (q, routes) else none)
      (closeSwitch cfg pending o.canvas o.router routeX y o.ends after).1
      (closeSwitch cfg pending o.canvas o.router routeX y o.ends after).2.1.current := by
  have hlength : routes.length = added.length := by
    have := congrArg List.length h.origins
    simpa using this.symm
  rw [← h.names, ← h.name, hlength]
  match added, h with
  | [], h =>
    have hfew : ¬ (2 ≤ 0 ∧ after = []) := by omega
    rw [List.length_nil, if_neg hfew]
    exact .stopped (Or.inr rfl) ⟨h.bare rfl, body, router, rfl, rfl⟩
  | [m], h =>
    have hfew : ¬ (2 ≤ 1 ∧ after = []) := by omega
    rw [List.length_singleton, if_neg hfew]
    exact .stopped (Or.inr rfl) ⟨h.led (List.cons_ne_nil _ _), body ++ [router], m, by simp, rfl⟩
  | m :: m' :: others, h =>
    have htrailing := h.led (List.cons_ne_nil _ _)
    have hmerged := laySwitchMerge_stops cfg router.name htrailing (routeX + cfg.spacingX) y
    simp only [List.map_cons] at hmerged ⊢
    unfold closeSwitch
    dsimp only
    cases after with
    | cons next rest =>
      rw [if_neg fun hnone => absurd hnone.2 (List.cons_ne_nil _ _)]
      dsimp only
      split
      · obtain ⟨body', hstops⟩ := hmerged (some next)
        generalize laySwitchMerge cfg o.canvas router.name _ _ y (some next) = merged at hstops ⊢
        exact .stopped (Or.inr rfl) hstops
      · obtain ⟨body', hstops⟩ := hmerged none
        generalize laySwitchMerge cfg o.canvas router.name _ _ y none = merged at hstops ⊢
        exact .stopped (Or.inr rfl) hstops
    | nil =>
      dsimp only
      cases pending with
      | true =>
        obtain ⟨body', hstops⟩ := hmerged none
        generalize laySwitchMerge cfg o.canvas router.name _ _ y none = merged at hstops ⊢
        exact .stopped (Or.inl rfl) hstops
      | false =>
        have hmany : 2 ≤ (m :: m' :: others).length ∧ ([] : List Requirement) = [] := ⟨by simp, rfl⟩
        rw [if_pos hmany]
        exact .split rfl rfl ⟨body, router, m :: m' :: others, rfl, h.origin, h.origins, htrailing, h.joined⟩

/-! ## Branches -/

theorem laySwitch_ended (h : Stops s body at'.current c) (pending : Bool) (y : Int) {r : Requirement}
    {rest : List Requirement} (hswitch : r.isSwitch = true) (hplain : fansOut r rest = false) :
    Ended s pending (openSwitch? r rest) (laySwitch cfg pending c at' y r rest).1
      (laySwitch cfg pending c at' y r rest).2.1.current := by
  obtain ⟨router, added, hopened⟩ := openSwitch_opened_trailing cfg h y r (switchLabels r.text)
    (routesOf (switchLabels r.text) rest)
  have hended := closeSwitch_ended cfg hopened pending (at'.x + cfg.spacingX) y
    (rest.drop (routesOf (switchLabels r.text) rest).length)
  unfold laySwitch openSwitch?
  dsimp only
  simpa only [hplain, hswitch, true_and] using hended

theorem layPlain_ended (h : Stops s body at'.current c) (pending : Bool) (y : Int) {r : Requirement}
    {rest : List Requirement} (hplain : fansOut r rest = false) :
    Ended s pending (openSwitch? r rest) (layPlain cfg pending c at' y r rest).1
      (layPlain cfg pending c at' y r rest).2.1.current := by
  unfold layPlain
  split
  · rename_i hswitch
    exact laySwitch_ended cfg h pending y hswitch hplain
  · rename_i hother
    have hnone : openSwitch? r rest = none := if_neg fun hopen => hother hopen.2.1
    obtain ⟨body', hstops⟩ := laySingle_stops cfg h y r
    exact .stopped (Or.inr hnone) hstops

/-- a step is laid out in rows or on its own, the latter after a note if it has fewer than two rows -/
theorem layStep_cases (pending : Bool) (c : Canvas) (at' : Cursor) (y : Int) (r : Requirement)
    (rest : List Requirement) :
    fansOut r rest = true ∧ (rowsOf r rest).rows ≠ [] ∧
        layStep cfg pending c at' y r rest =
          ((layParallel cfg c at' y r (rowsOf r rest)).1, (layParallel cfg c at' y r (rowsOf r rest)).2,
            (rowsOf r rest).rest) ∨
      fansOut r rest = false ∧
        (layStep cfg pending c at' y r rest = layPlain cfg pending c at' y r rest ∨
          ∃ rule detail,
            layStep cfg pending c at' y r rest = layPlain cfg pending (c.note rule detail) at' y r rest) := by
  unfold layStep fansOut
  split
  · rename_i hparallel
    rw [hparallel, Bool.true_and]
    dsimp only
    split
    · rename_i hfew
      exact Or.inr ⟨decide_eq_false (by omega), Or.inr ⟨_, _, rfl⟩⟩
    · rename_i hmany
      refine Or.inl ⟨decide_eq_true (by omega), fun hnone => ?_, rfl⟩
      rw [hnone] at hmany
      exact hmany (by decide)
  · rename_i hother
    rw [Bool.eq_false_of_not_eq_true hother, Bool.false_and]
    exact Or.inr ⟨rfl, Or.inl rfl⟩

/-- **How a motif ends.** -/
theorem layStep_ended (h : Stops s body at'.current c) (pending : Bool) (y : Int) (r : Requirement)
    (rest : List Requirement) :
    Ended s pending (openSwitch? r rest) (layStep cfg pending c at' y r rest).1
      (layStep cfg pending c at' y r rest).2.1.current := by
  rcases layStep_cases cfg pending c at' y r rest with ⟨hfans, hrows, hstep⟩ | ⟨hplain, hstep | ⟨rule, detail, hstep⟩⟩
  · have hnone : openSwitch? r rest = none := if_neg fun hopen => by simp [hfans] at hopen
    obtain ⟨body', hstops⟩ := layParallel_stops cfg h y r rest hrows
    rw [hstep]
    exact .stopped (Or.inr hnone) hstops
  · rw [hstep]
    exact layPlain_ended cfg h pending y hplain
  · rw [hstep]
    exact layPlain_ended cfg (h.note rule detail) pending y hplain

theorem length_layRoutes (router : String) (x y : Int) (k : Nat) (rs : List Requirement) :
    (layRoutes cfg c router x y k rs).2.length = rs.length := by
  induction rs generalizing c k with
  | nil => rfl
  | cons r rest ih => exact congrArg Nat.succ (ih _)

theorem closeSwitch_rest (pending : Bool) (router : String) (routeX y : Int) {ends : List String}
    {routes : List Requirement} (h : ends.length = routes.length) (after : List Requirement) :
    (closeSwitch cfg pending c router routeX y ends after).2.2 = afterRoutes routes after := by
  unfold closeSwitch
  dsimp only
  rcases ends with _ | ⟨e, _ | ⟨e', ends⟩⟩
  · obtain rfl : routes = [] := List.length_eq_zero_iff.1 h.symm
    rfl
  · obtain ⟨q, rfl⟩ := List.length_eq_one_iff.1 h.symm
    rfl
  · rcases routes with _ | ⟨q, _ | ⟨q', routes⟩⟩
    · cases h
    · cases h
    · unfold afterRoutes
      dsimp only
      cases after with
      | nil =>
        dsimp only
        split <;> rfl
      | cons next others =>
        dsimp only
        split <;> rfl

theorem length_openSwitch_ends (y : Int) (r : Requirement) (inferred : List String) (routes : List Requirement) :
    (openSwitch cfg c at' y r inferred routes).ends.length = routes.length := by
  unfold openSwitch
  dsimp only
  rw [length_layRoutes]

theorem layPlain_rest (pending : Bool) (c : Canvas) (at' : Cursor) (y : Int) {r : Requirement} {rest : List Requirement}
    (hplain : fansOut r rest = false) : (layPlain cfg pending c at' y r rest).2.2 = afterStep r rest := by
  unfold layPlain afterStep
  rw [hplain, if_neg Bool.false_ne_true]
  split
  · unfold laySwitch
    dsimp only
    rw [closeSwitch_rest cfg pending _ _ y (length_openSwitch_ends cfg y r _ _)]
  · rfl

/-- what a motif leaves does not depend on where it is laid out -/
theorem layStep_rest (pending : Bool) (y : Int) (r : Requirement) (rest : List Requirement) :
    (layStep cfg pending c at' y r rest).2.2 = afterStep r rest := by
  rcases layStep_cases cfg pending c at' y r rest with ⟨hfans, -, hstep⟩ | ⟨hplain, hstep | ⟨rule, detail, hstep⟩⟩
  · rw [hstep, afterStep, if_pos hfans]
  · rw [hstep, layPlain_rest cfg pending _ _ y hplain]
  · rw [hstep, layPlain_rest cfg pending _ _ y hplain]

/-- **How a branch ends before it is answered**, by induction on its motifs. -/
theorem layAll_ended (pending : Bool) (y : Int) (rs : List Requirement) (h : ∃ body, Stops s body at'.current c) :
    Ended s pending (lastSwitch? rs) (layAll cfg pending c at' y rs).1 (layAll cfg pending c at' y rs).2.current := by
  induction c, at', rs using layAll.induct cfg pending y with
  | case1 c at' =>
    obtain ⟨body, h⟩ := h
    rw [layAll, lastSwitch?]
    exact .stopped (Or.inr rfl) h
  | case2 c at' r rest next ih =>
    obtain ⟨body, h⟩ := h
    have hrest : next.2.2 = afterStep r rest := layStep_rest cfg pending y r rest
    have hstep : Ended s pending (openSwitch? r rest) next.1 next.2.1.current := layStep_ended cfg h pending y r rest
    rw [hrest] at ih
    rw [layAll, lastSwitch?]
    change Ended s pending _ (layAll cfg pending next.1 next.2.1 y next.2.2).1
      (layAll cfg pending next.1 next.2.1 y next.2.2).2.current
    rw [hrest]
    cases hstep with
    | stopped hlast hstops =>
      have hended := ih ⟨_, hstops⟩
      rcases hlast with rfl | hnone
      · exact hended.of_pending
      · rwa [hnone, Option.none_or]
    | split hpending hlast hsplits =>
      rw [afterStep_of_open hlast, layAll, hlast, Option.some_or]
      exact .split hpending rfl hsplits

end Synthesis

end WorkflowGraph
