import WorkflowGraph.Proofs.Connections.Heads
import WorkflowGraph.Proofs.Synthesis.Order
/-
Layouts that leave nothing open. In a branch that owes an answer the routes of every switch are joined, everything but
the last node leads on, and no two branches share a row. The nodes that nothing follows yet are kept in a list while a
branch is laid out: every motif takes the node that the branch goes on from off that list and puts its own end on it.

- `Laying`: what holds while a branch is laid out.
- `layAll_laying`: the branch leaves one end, if its switches are joined.
- `lay_closed`: the layout of a plan whose branches all owe an answer.
-/
namespace WorkflowGraph

namespace Connections

/-- edges to a target are the first ones on ports without any -/
theorem headAt_feed (c : Connections) (target : String) (feeds : List Feed) (name : String) (i : Nat) :
    (c.feed target feeds).headAt name i =
      (c.headAt name i).or (if ∃ f ∈ feeds, f.source = name ∧ f.port = i then some target else none) := by
  induction feeds generalizing c with
  | nil => simp [feed]
  | cons f feeds ih =>
    rw [feed, List.foldl_cons, ← feed, ih, headAt_addEdge, Option.or_assoc]
    congr 1
    by_cases hfirst : f.source = name ∧ f.port = i
    · simp [hfirst, Edge.plain]
    · simp [hfirst]

end Connections

namespace Canvas

/-- where the first edge on a main port of a node leads -/
def headAt (c : Canvas) (name : String) (i : Nat) : Option String := c.connections.headAt name i

theorem headAt_grow (c : Canvas) (r : NodeRequest) (feeds : List Feed) (name : String) (i : Nat) :
    (c.grow r feeds).headAt name i =
      (c.headAt name i).or (if ∃ f ∈ feeds, f.source = name ∧ f.port = i then some (c.newNode r).name else none) := by
  rw [headAt, connections_grow, Connections.headAt_feed]
  rfl

theorem headAt_place (cfg : BuildConfig) (c : Canvas) (r : Requirement) (x y : Int) (source : String) (port index : Nat)
    (name : String) (i : Nat) :
    ((c.place cfg r x y).2.connect source port (c.place cfg r x y).1 index).headAt name i =
      (c.headAt name i).or (if source = name ∧ port = i then some (c.place cfg r x y).1 else none) := by
  rw [headAt, connect, Connections.headAt_addEdge, Synthesis.connections_place]
  rfl

theorem headAt_note (c : Canvas) (rule : String) (detail : List (String × Value)) (name : String) (i : Nat) :
    (c.note rule detail).headAt name i = c.headAt name i := rfl

theorem headAt_openPorts (c : Canvas) (source : String) (count : Nat) (name : String) (i : Nat) :
    (c.openPorts source count).headAt name i = c.headAt name i :=
  Connections.headAt_ensurePorts c.connections source name count i

theorem exists_mem_mergeFeeds {k : Nat} {ends : List String} {e : String} (h : e ∈ ends) :
    ∃ f ∈ mergeFeeds k ends, f.source = e ∧ f.port = 0 := by
  induction ends generalizing k with
  | nil => cases h
  | cons e' rest ih =>
    rcases List.mem_cons.1 h with rfl | h
    · exact ⟨_, List.mem_cons_self, rfl, rfl⟩
    · obtain ⟨f, hf, hsource⟩ := ih (k := k + 1) h
      exact ⟨f, List.mem_cons_of_mem _ hf, hsource⟩

/-! ## A branch that is laid out -/

/-- the canvas on which a branch begins, and its first row -/
structure BranchStart where
  canvas : Canvas
  branch : Option Nat
  top : Int

/-- a branch is being laid out: apart from the switches in `busy` the branches of every node run together, and apart
from the nodes in `loose` every node of the branch leads on -/
structure Laying (s : BranchStart) (busy loose : List String) (c : Canvas) : Prop where
  sound : Sound c
  branch : c.branch = s.branch
  old : ∀ n ∈ c.nodes, n.branch = s.branch ∨ n ∈ s.canvas.nodes
  kept : ∀ a i t, s.canvas.headAt a i = some t → c.headAt a i = some t
  grounded : ∀ a i t, c.headAt a i = some t → c.Places a
  placed : ∀ a ∈ loose, c.Places a
  closed : ∀ a, a ∉ busy → c.connections.Converges a
  led : ∀ n ∈ c.nodes, n.branch = s.branch → c.headAt n.name 0 = none → n.name ∈ loose
  rows : ∀ n ∈ c.nodes, n.branch = s.branch → s.top ≤ n.y ∧ n.y ≤ c.lowestY
  lowest : s.top ≤ c.lowestY

variable {s : BranchStart} {busy loose loose' : List String} {c : Canvas}

/-- an edge may leave a node that stands on the canvas, by the first port unless the node is a busy switch -/
def MayLeave (busy : List String) (c : Canvas) (f : Feed) : Prop := c.Places f.source ∧ (f.port = 0 ∨ f.source ∈ busy)

section

variable (h : Laying s busy loose c)

include h

theorem Laying.note (rule : String) (detail : List (String × Value)) : Laying s busy loose (c.note rule detail) :=
  ⟨h.sound.step (.noted c rule detail), h.branch, h.old, h.kept, h.grounded, h.placed, h.closed, h.led, h.rows,
    h.lowest⟩

/-- nodes that lead on need not be on the list -/
theorem Laying.mono (hled : ∀ a ∈ loose, a ∈ loose' ∨ c.headAt a 0 ≠ none) (hplaced : ∀ a ∈ loose', c.Places a) :
    Laying s busy loose' c :=
  { h with
    placed := hplaced
    led := fun n hn hbranch hnone => (hled _ (h.led n hn hbranch hnone)).resolve_right fun hsome => hsome hnone }

theorem Laying.congr (hsame : ∀ a, a ∈ loose ↔ a ∈ loose') : Laying s busy loose' c :=
  h.mono (fun a ha => Or.inl ((hsame a).1 ha)) fun a ha => h.placed a ((hsame a).2 ha)

theorem Laying.openPorts {source : String} (hsource : c.Places source) (count : Nat) :
    Laying s busy loose (c.openPorts source count) where
  sound := h.sound.step (.opened c source count hsource)
  branch := h.branch
  old := h.old
  kept a i t ht := (headAt_openPorts ..).trans (h.kept a i t ht)
  grounded a i t ht := h.grounded a i t ((headAt_openPorts ..).symm.trans ht)
  placed := h.placed
  closed a ha := (h.closed a ha).mono (fun a i _ ht => (headAt_openPorts c source count a i).trans ht)
    fun i _ hnone => (headAt_openPorts c source count a i).trans hnone
  led n hn hbranch hnone := h.led n hn hbranch ((headAt_openPorts ..).symm.trans hnone)
  rows := h.rows
  lowest := h.lowest

/-- a new node has no edges yet -/
theorem Laying.headAt_new (r : NodeRequest) (i : Nat) : c.headAt (c.newNode r).name i = none := by
  cases hhead : c.headAt (c.newNode r).name i with
  | none => rfl
  | some t =>
    obtain ⟨n, hn, hname⟩ := h.grounded _ _ _ hhead
    exact absurd hname (h.sound.new r n hn)

/-- a node is placed, and takes nodes that lead to it by their first ports off the list -/
theorem Laying.grow {r : NodeRequest} {feeds : List Feed} (hfeeds : ∀ f ∈ feeds, c.MayLeave busy f) (hy : s.top ≤ r.y)
    (hloose : ∀ a ∈ loose, a ∈ loose' ∨ ∃ f ∈ feeds, f.source = a ∧ f.port = 0) (hplaced : ∀ a ∈ loose', c.Places a) :
    Laying s busy ((c.newNode r).name :: loose') (c.grow r feeds) := by
  have hgrown : ∀ {a}, c.Places a → (c.grow r feeds).Places a := by
    rintro a ⟨n, hn, rfl⟩
    exact ⟨n, by simp [hn], rfl⟩
  have hnew : (c.grow r feeds).Places (c.newNode r).name := ⟨c.newNode r, by simp, rfl⟩
  have hmem : ∀ {n}, n ∈ (c.grow r feeds).nodes → n ∈ c.nodes ∨ n = c.newNode r := by
    intro n hn
    rw [nodes_grow] at hn
    simpa using hn
  have hkept : ∀ a i t, c.headAt a i = some t → (c.grow r feeds).headAt a i = some t := by
    intro a i t ht
    rw [headAt_grow, ht, Option.some_or]
  refine
    { sound := sound_of_leads (leads_grow fun f hf => (hfeeds f hf).1) h.sound
      branch := (branch_grow c r feeds).trans h.branch
      old := fun n hn => ?_
      kept := fun a i t ht => hkept a i t (h.kept a i t ht)
      grounded := fun a i t ht => ?_
      placed := List.forall_mem_cons.2 ⟨hnew, fun a ha => hgrown (hplaced a ha)⟩
      closed := fun a ha => (h.closed a ha).mono hkept fun i hi hnone => ?_
      led := fun n hn hbranch hnone => ?_
      rows := fun n hn hbranch => ?_
      lowest := ?_ }
  · rcases hmem hn with hn | rfl
    · exact h.old n hn
    · exact Or.inl h.branch
  · rw [headAt_grow] at ht
    cases hhead : c.headAt a i with
    | some t' => exact hgrown (h.grounded a i t' hhead)
    | none =>
      rw [hhead, Option.none_or] at ht
      obtain ⟨⟨f, hf, rfl, -⟩, -⟩ := Option.ite_none_right_eq_some.1 ht
      exact hgrown (hfeeds f hf).1
  · have hbefore : c.headAt a i = none := hnone
    show (c.grow r feeds).headAt a i = none
    rw [headAt_grow, hbefore, Option.none_or, if_neg]
    rintro ⟨f, hf, rfl, rfl⟩
    exact (hfeeds f hf).2.elim (Nat.pos_iff_ne_zero.1 hi) ha
  · rcases hmem hn with hn | rfl
    · rw [headAt_grow, Option.or_eq_none_iff] at hnone
      have hunfed : ¬ ∃ f ∈ feeds, f.source = n.name ∧ f.port = 0 := by simpa using hnone.2
      exact List.mem_cons_of_mem _ ((hloose _ (h.led n hn hbranch hnone.1)).resolve_right hunfed)
    · exact List.mem_cons_self
  · rw [lowestY_grow]
    rcases hmem hn with hn | rfl
    · exact ⟨(h.rows n hn hbranch).1, (h.rows n hn hbranch).2.trans (le_max_left _ _)⟩
    · exact ⟨hy, le_max_right _ _⟩
  · rw [lowestY_grow]
    exact h.lowest.trans (le_max_left _ _)

/-- a requirement is placed, with one edge to it -/
theorem Laying.place (cfg : BuildConfig) {f : Feed} (hf : c.MayLeave busy f) (r : Requirement) (x : Int) {y : Int}
    (hy : s.top ≤ y) (hloose : ∀ a ∈ loose, a ∈ loose' ∨ f.source = a ∧ f.port = 0) (hplaced : ∀ a ∈ loose', c.Places a) :
    Laying s busy ((c.place cfg r x y).1 :: loose')
      ((c.place cfg r x y).2.connect f.source f.port (c.place cfg r x y).1 f.index) := by
  have hadd : ∀ {d : Canvas} {type : String}, Laying s busy loose d → d.MayLeave busy f → (∀ a ∈ loose', d.Places a) →
      Laying s busy ((d.newNode ⟨type, r.name, x, y, [], 1, .step r⟩).name :: loose')
        (d.grow ⟨type, r.name, x, y, [], 1, .step r⟩ [f]) := by
    intro d type hd hf hplaced
    exact hd.grow (List.forall_mem_singleton.2 hf) hy (fun a ha => (hloose a ha).imp_right fun hfed =>
      ⟨f, List.mem_cons_self, hfed⟩) hplaced
  unfold Canvas.place
  split
  · rw [connect_add, add_name]
    exact hadd (h.note _ _) hf hplaced
  · rw [connect_add, add_name]
    exact hadd h hf hplaced

/-- a requirement gets a name of its own -/
theorem Laying.place_new (cfg : BuildConfig) (r : Requirement) (x y : Int) :
    ∀ n ∈ c.nodes, n.name ≠ (c.place cfg r x y).1 := by
  unfold Canvas.place
  split
  · rw [add_name]
    exact (h.note "trigger-step-demoted" [("node", r.name), ("type", r.type)]).sound.new _
  · rw [add_name]
    exact h.sound.new _

/-- rows or routes are joined in a node -/
theorem Laying.merge {ends : List String} (hends : ∀ e ∈ ends, c.Places e) (req : Option Requirement) (wanted : String)
    (x : Int) {y : Int} (hy : s.top ≤ y) (mode : String) (typeVersion : Nat)
    (hloose : ∀ a ∈ loose, a ∈ loose' ∨ a ∈ ends) (hplaced : ∀ a ∈ loose', c.Places a) :
    ∃ r : NodeRequest, (c.addMerge req wanted x y mode typeVersion).1 = (c.newNode r).name ∧
      (c.addMerge req wanted x y mode typeVersion).2.connectEnds (c.addMerge req wanted x y mode typeVersion).1 0 ends =
        c.grow r (mergeFeeds 0 ends) ∧
      Laying s busy ((c.newNode r).name :: loose') (c.grow r (mergeFeeds 0 ends)) := by
  have hgrow : ∀ {r : NodeRequest}, r.y = y →
      Laying s busy ((c.newNode r).name :: loose') (c.grow r (mergeFeeds 0 ends)) := by
    rintro r rfl
    refine h.grow (fun f hf => ?_) hy (fun a ha => (hloose a ha).imp_right exists_mem_mergeFeeds) hplaced
    obtain ⟨hsource, hport⟩ := source_mem_of_mem_mergeFeeds hf
    exact ⟨hends _ hsource, Or.inl hport⟩
  cases req with
  | none =>
    refine ⟨⟨Catalog.fullTag "merge", wanted, x, y, [(.text "mode", .text mode)], typeVersion, .join⟩, ?_, ?_, hgrow rfl⟩
    · exact add_name c _
    · simp only [addMerge]
      rw [connectEnds_eq_feed, feed_add]
  | some q =>
    refine ⟨⟨Catalog.fullTag "merge", q.name, x, y, [(.text "mode", .text mode)], typeVersion, .step q⟩, ?_, ?_,
      hgrow rfl⟩
    · exact add_name c _
    · simp only [addMerge]
      rw [connectEnds_eq_feed, feed_add]

end

end Canvas

namespace Synthesis

open Canvas

variable (cfg : BuildConfig) {s : BranchStart} {busy loose : List String} {c : Canvas} {at' : Cursor}

/-! ## Rows -/

/-- the next requirement follows the end of the branch -/
theorem layFirst_laying (h : Laying s busy (at'.current :: loose) c) (r : Requirement) (x : Int) {y : Int}
    (hy : s.top ≤ y) :
    Laying s busy ((c.place cfg r x y).1 :: loose)
      ((c.place cfg r x y).2.connect at'.current 0 (c.place cfg r x y).1 0) := by
  have hplaced := List.forall_mem_cons.1 h.placed
  refine h.place cfg (f := ⟨at'.current, 0, 0⟩) ⟨hplaced.1, Or.inl rfl⟩ r x hy (fun a ha => ?_) hplaced.2
  rcases List.mem_cons.1 ha with rfl | ha
  · exact Or.inr ⟨rfl, rfl⟩
  · exact Or.inl ha

theorem layRow_laying (h : Laying s busy (at'.current :: loose) c) {y : Int} (hy : s.top ≤ y) (rs : List Requirement) :
    Laying s busy ((layRow cfg c at' y rs).2.current :: loose) (layRow cfg c at' y rs).1 := by
  induction rs generalizing c at' with
  | nil => exact h
  | cons r rest ih =>
    rw [layRow]
    dsimp only
    exact ih (layFirst_laying cfg h r at'.x hy)

/-- every row leaves its end -/
theorem layRows_laying (hspacing : 0 ≤ cfg.siblingSpacing) (h : Laying s busy (at'.current :: loose) c) {y : Int}
    (hy : s.top ≤ y) {rows : List (List Requirement)} (hrows : rows ≠ []) :
    Laying s busy ((layRows cfg c at' y rows).2.1 ++ loose) (layRows cfg c at' y rows).1 := by
  induction rows generalizing c y loose with
  | nil => exact absurd rfl hrows
  | cons row rows ih =>
    rw [layRows]
    dsimp only
    by_cases hlast : rows = []
    · rw [hlast, layRows]
      exact layRow_laying cfg h hy row
    · -- the node that the rows start from stays on the list until the last row
      have htwice : Laying s busy (at'.current :: at'.current :: loose) c := h.congr (by simp)
      have hrow := layRow_laying cfg htwice hy row
      have hfrom : Laying s busy (at'.current :: (layRow cfg c at' y row).2.current :: loose)
          (layRow cfg c at' y row).1 := hrow.congr fun a => by simp [or_left_comm]
      have hrest := ih hfrom (y := y + cfg.siblingSpacing) (by omega) hlast
      exact hrest.congr fun a => by simp [or_left_comm]

theorem layMergedRows_laying (hspacing : 0 ≤ cfg.siblingSpacing) {start : Cursor}
    (h : Laying s busy (start.current :: loose) c) {y : Int} (hy : s.top ≤ y) (head : Requirement) {scan : RowScan}
    (hrows : scan.rows ≠ []) :
    Laying s busy ((layMergedRows cfg c start y head scan).2.current :: loose)
      (layMergedRows cfg c start y head scan).1 := by
  have hlaid := layRows_laying cfg hspacing h hy hrows
  unfold layMergedRows
  generalize layRows cfg c start y scan.rows = out at hlaid ⊢
  obtain ⟨d, ends, x⟩ := out
  have hplaced := List.forall_mem_append.1 hlaid.placed
  obtain ⟨r, hname, hcanvas, hmerged⟩ := hlaid.merge hplaced.1 scan.merge "Merge Results" x hy "append" 1
    (fun a ha => (List.mem_append.1 ha).symm) hplaced.2
  dsimp only
  rw [hcanvas, hname]
  exact hmerged.note _ _

/-- a parallel step leaves the node that joins its rows -/
theorem layParallel_laying (hspacing : 0 ≤ cfg.siblingSpacing) (h : Laying s busy (at'.current :: loose) c) {y : Int}
    (hy : s.top ≤ y) (head : Requirement) {scan : RowScan} (hrows : scan.rows ≠ []) :
    Laying s busy ((layParallel cfg c at' y head scan).2.current :: loose) (layParallel cfg c at' y head scan).1 := by
  unfold layParallel
  split
  · exact layMergedRows_laying cfg hspacing h hy head hrows
  · dsimp only
    exact layMergedRows_laying cfg hspacing (layFirst_laying cfg h head at'.x hy) hy head hrows

/-! ## Switches -/

/-- a switch has been opened and leads to `ends`, to the first of them by its first port, and nothing follows these -/
structure Routing (s : BranchStart) (router : String) (ends loose : List String) (c : Canvas) : Prop extends
    Laying s [router] (router :: (ends ++ loose)) c where
  routes : ∀ i, c.headAt router i = ends[i]?
  fresh : ∀ e ∈ ends, c.headAt e 0 = none

section

variable {router : String} {ends : List String}

/-- one route more -/
theorem Routing.route (h : Routing s router ends loose c) (r : Requirement) (x : Int) {y : Int} (hy : s.top ≤ y) :
    Routing s router (ends ++ [(c.place cfg r x y).1]) loose
      ((c.place cfg r x y).2.connect router ends.length (c.place cfg r x y).1 0) := by
  have hrouter := h.placed router List.mem_cons_self
  have hnew := h.toLaying.place_new cfg r x y
  have hplaced := h.toLaying.place cfg (f := ⟨router, ends.length, 0⟩) ⟨hrouter, Or.inr List.mem_cons_self⟩ r x hy
    (fun a ha => Or.inl ha) h.placed
  refine ⟨hplaced.congr fun a => by simp [or_left_comm], fun i => ?_, fun e he => ?_⟩
  · rw [headAt_place, h.routes]
    rcases Nat.lt_trichotomy i ends.length with hlt | rfl | hgt
    · rw [List.getElem?_append_left hlt, List.getElem?_eq_getElem hlt, Option.some_or]
    · simp
    · have hne : ¬ (router = router ∧ ends.length = i) := fun heq => by omega
      rw [if_neg hne, Option.or_none, List.getElem?_eq_none hgt.le, List.getElem?_eq_none]
      rw [List.length_append, List.length_singleton]
      omega
  · rw [headAt_place]
    rcases List.mem_append.1 he with he | he
    · have hpos := List.length_pos_of_mem he
      rw [h.fresh e he, Option.none_or, if_neg fun heq => by omega]
    · obtain ⟨n, hn, hname⟩ := hrouter
      have hnone : c.headAt e 0 = none := by
        cases hhead : c.headAt e 0 with
        | none => rfl
        | some t =>
          obtain ⟨m, hm, hme⟩ := h.grounded _ _ _ hhead
          exact absurd (hme.trans (List.mem_singleton.1 he)) (hnew m hm)
      rw [hnone, Option.none_or, if_neg]
      rintro ⟨rfl, -⟩
      exact hnew n hn (hname.trans (List.mem_singleton.1 he))

theorem layRoutes_routing (hspacing : 0 ≤ cfg.siblingSpacing) (h : Routing s router ends loose c) (x : Int) {y : Int}
    (hy : s.top ≤ y) (rs : List Requirement) :
    Routing s router (ends ++ (layRoutes cfg c router x y ends.length rs).2) loose
      (layRoutes cfg c router x y ends.length rs).1 := by
  induction rs generalizing c ends with
  | nil =>
    rw [layRoutes, List.append_nil]
    exact h
  | cons r rest ih =>
    have hbelow : 0 ≤ (ends.length : Int) * cfg.siblingSpacing := Int.mul_nonneg (Int.natCast_nonneg _) hspacing
    have hroutes := ih (h.route cfg r x (y := y + ends.length * cfg.siblingSpacing) (by omega))
    rw [List.length_append, List.length_singleton, List.append_assoc] at hroutes
    exact hroutes

/-- with one route at most the branches of a switch run together -/
theorem Routing.closed_of_few (h : Routing s router ends loose c) (hfew : ends.length ≤ 1) :
    Laying s [] (router :: (ends ++ loose)) c := by
  refine { h.toLaying with closed := fun a _ => ?_ }
  by_cases ha : a = router
  · refine Or.inl fun i hi => ?_
    rw [ha]
    exact (h.routes i).trans (List.getElem?_eq_none (by omega))
  · exact h.closed a (by simpa using ha)

/-- routes that are joined run together -/
theorem Routing.closed_of_merged (h : Routing s router ends loose c) (hne : ends ≠ []) {r : NodeRequest}
    (hmerged : Laying s [router] ((c.newNode r).name :: (router :: loose)) (c.grow r (mergeFeeds 0 ends))) :
    Laying s [] ((c.newNode r).name :: loose) (c.grow r (mergeFeeds 0 ends)) := by
  have hfirst : (c.headAt router 0).isSome := by
    rw [h.routes, List.getElem?_eq_getElem (List.length_pos_iff.2 hne)]
    rfl
  have hrouter : router ∉ ends := by
    intro hmem
    rw [h.fresh router hmem] at hfirst
    cases hfirst
  have hroutes : ∀ i, (c.grow r (mergeFeeds 0 ends)).headAt router i = ends[i]? := by
    intro i
    rw [headAt_grow, h.routes, if_neg, Option.or_none]
    rintro ⟨f, hf, hsource, -⟩
    exact hrouter (hsource ▸ (source_mem_of_mem_mergeFeeds hf).1)
  have hends : ∀ e ∈ ends, (c.grow r (mergeFeeds 0 ends)).headAt e 0 = some (c.newNode r).name := by
    intro e he
    rw [headAt_grow, h.fresh e he, Option.none_or, if_pos (exists_mem_mergeFeeds he)]
  have hled : (c.grow r (mergeFeeds 0 ends)).headAt router 0 ≠ none := by
    rw [hroutes, ← h.routes]
    exact Option.isSome_iff_ne_none.1 hfirst
  have hclosed : Laying s [] ((c.newNode r).name :: router :: loose) (c.grow r (mergeFeeds 0 ends)) := by
    refine { hmerged with closed := fun a _ => ?_ }
    by_cases ha : a = router
    · refine Or.inr ⟨?_, (c.newNode r).name, fun i t ht => ?_⟩
      · rw [ha]
        exact Option.isSome_iff_ne_none.2 hled
      · rw [ha] at ht
        exact hends t (List.mem_of_getElem? ((hroutes i).symm.trans ht))
    · exact hmerged.closed a (by simpa using ha)
  refine hclosed.mono (fun a ha => ?_) fun a ha => hclosed.placed a (by simp at ha ⊢; tauto)
  rcases List.mem_cons.1 ha with rfl | ha
  · exact Or.inl List.mem_cons_self
  · rcases List.mem_cons.1 ha with rfl | ha
    · exact Or.inr hled
    · exact Or.inl (List.mem_cons_of_mem _ ha)

theorem laySwitchMerge_laying (h : Routing s router ends loose c) (hne : ends ≠ []) (x : Int) {y : Int}
    (hy : s.top ≤ y) (req : Option Requirement) :
    Laying s [] ((laySwitchMerge cfg c router ends x y req).2.current :: loose)
      (laySwitchMerge cfg c router ends x y req).1 := by
  have hends : ∀ e ∈ ends, c.Places e := fun e he => h.placed e (by simp [he])
  have hothers : ∀ a ∈ router :: loose, c.Places a := fun a ha => h.placed a (by simp at ha ⊢; tauto)
  obtain ⟨r, hname, hcanvas, hmerged⟩ := h.toLaying.merge hends req ("Merge " ++ router ++ " Results") x hy
    "chooseBranch" 2 (fun a ha => by simp at ha ⊢; tauto) hothers
  unfold laySwitchMerge
  dsimp only
  rw [hcanvas, hname]
  exact (h.closed_of_merged hne hmerged).note _ _

/-- a switch that is closed leaves one end, as long as an answer is pending -/
theorem closeSwitch_laying (h : Routing s router ends loose c) (routeX : Int) {y : Int} (hy : s.top ≤ y)
    (after : List Requirement) :
    Laying s [] ((closeSwitch cfg true c router routeX y ends after).2.1.current :: loose)
      (closeSwitch cfg true c router routeX y ends after).1 := by
  unfold closeSwitch
  dsimp only
  split
  · exact h.closed_of_few (Nat.zero_le 1)
  · rename_i only
    have hclosed := h.closed_of_few (Nat.le_refl 1)
    refine hclosed.mono (fun a ha => ?_) fun a ha => hclosed.placed a (List.mem_cons_of_mem _ ha)
    rcases List.mem_cons.1 ha with rfl | ha
    · refine Or.inr ?_
      rw [h.routes]
      exact Option.some_ne_none only
    · exact Or.inl ha
  · rename_i hnone _
    have merged := laySwitchMerge_laying cfg h hnone (routeX + cfg.spacingX) hy
    split
    · split
      · dsimp only
        exact merged _
      · dsimp only
        exact merged none
    · rw [if_pos rfl]
      dsimp only
      exact merged none

end

/-- a switch is opened with its routes -/
theorem openSwitch_routing (hspacing : 0 ≤ cfg.siblingSpacing) (h : Laying s [] (at'.current :: loose) c) {y : Int}
    (hy : s.top ≤ y) (r : Requirement) (inferred : List String) (routes : List Requirement) :
    Routing s (openSwitch cfg c at' y r inferred routes).router (openSwitch cfg c at' y r inferred routes).ends loose
      (openSwitch cfg c at' y r inferred routes).canvas := by
  unfold openSwitch
  dsimp only
  generalize (if routes.isEmpty then inferred else inferred.take routes.length) = labels
  generalize hq : NodeRequest.mk (Catalog.fullTag "switch") r.name at'.x y (switchRules labels) 1 (.step r) = q
  have hplaced := List.forall_mem_cons.1 h.placed
  rw [connect_add, add_name]
  have hgrown : Laying s [] ((c.newNode q).name :: loose) (c.grow q [⟨at'.current, 0, 0⟩]) := by
    refine h.grow (List.forall_mem_singleton.2 ⟨hplaced.1, Or.inl rfl⟩) (hq ▸ hy) (fun a ha => ?_) hplaced.2
    rcases List.mem_cons.1 ha with rfl | ha
    · exact Or.inr ⟨_, List.mem_cons_self, rfl, rfl⟩
    · exact Or.inl ha
  have hempty : ∀ i, (c.grow q [⟨at'.current, 0, 0⟩]).headAt (c.newNode q).name i = none := by
    intro i
    rw [headAt_grow, h.headAt_new, Option.none_or, if_neg]
    rintro ⟨f, hf, hsource, -⟩
    obtain ⟨n, hn, hname⟩ := hplaced.1
    rw [List.mem_singleton.1 hf] at hsource
    exact h.sound.new q n hn (hname.trans hsource)
  have hopened := hgrown.openPorts (hgrown.placed _ List.mem_cons_self) labels.length
  have hrouting : ∀ rule detail, Routing s (c.newNode q).name [] loose
      (((c.grow q [⟨at'.current, 0, 0⟩]).openPorts (c.newNode q).name labels.length).note rule detail) := by
    intro rule detail
    refine ⟨{ hopened.note rule detail with closed := fun a _ => hopened.closed a List.not_mem_nil }, fun i => ?_, ?_⟩
    · rw [headAt_note, headAt_openPorts, hempty i]
      rfl
    · simp
  have hlaid := fun rule detail =>
    layRoutes_routing cfg hspacing (hrouting rule detail) (at'.x + cfg.spacingX) hy routes
  simp only [List.nil_append, List.length_nil] at hlaid
  exact hlaid _ _

theorem laySwitch_laying (hspacing : 0 ≤ cfg.siblingSpacing) (h : Laying s [] (at'.current :: loose) c) {y : Int}
    (hy : s.top ≤ y) (r : Requirement) (rest : List Requirement) :
    Laying s [] ((laySwitch cfg true c at' y r rest).2.1.current :: loose) (laySwitch cfg true c at' y r rest).1 := by
  have hopened := openSwitch_routing cfg hspacing h hy r (switchLabels r.text)
  unfold laySwitch
  dsimp only
  generalize routesOf (switchLabels r.text) rest = routes
  exact closeSwitch_laying cfg (hopened routes) _ hy _

/-! ## Branches -/

theorem layPlain_laying (hspacing : 0 ≤ cfg.siblingSpacing) (h : Laying s [] (at'.current :: loose) c) {y : Int}
    (hy : s.top ≤ y) (r : Requirement) (rest : List Requirement) :
    Laying s [] ((layPlain cfg true c at' y r rest).2.1.current :: loose) (layPlain cfg true c at' y r rest).1 := by
  unfold layPlain
  split
  · exact laySwitch_laying cfg hspacing h hy r rest
  · exact layFirst_laying cfg h r at'.x hy

theorem layStep_laying (hspacing : 0 ≤ cfg.siblingSpacing) (h : Laying s [] (at'.current :: loose) c) {y : Int}
    (hy : s.top ≤ y) (r : Requirement) (rest : List Requirement) :
    Laying s [] ((layStep cfg true c at' y r rest).2.1.current :: loose) (layStep cfg true c at' y r rest).1 := by
  unfold layStep
  split
  · dsimp only
    split
    · exact layPlain_laying cfg hspacing (h.note _ _) hy r rest
    · rename_i hmany
      have hrows : (rowsOf r rest).rows ≠ [] := by
        intro hnone
        rw [hnone] at hmany
        exact hmany (by decide)
      exact layParallel_laying cfg hspacing h hy r hrows
  · exact layPlain_laying cfg hspacing h hy r rest

/-- **A branch that owes an answer leaves one end**, and its switches are joined. -/
theorem layAll_laying (hspacing : 0 ≤ cfg.siblingSpacing) (h : Laying s [] (at'.current :: loose) c) {y : Int}
    (hy : s.top ≤ y) (rs : List Requirement) :
    Laying s [] ((layAll cfg true c at' y rs).2.current :: loose) (layAll cfg true c at' y rs).1 := by
  induction c, at', rs using layAll.induct cfg true y with
  | case1 c at' =>
    rw [layAll]
    exact h
  | case2 c at' r rest next ih =>
    rw [layAll]
    exact ih (layStep_laying cfg hspacing h hy r rest)

end Synthesis

namespace Canvas

/-! ## Plans -/

/-- nothing is left open on a canvas: the branches of every node run together, every branch of the plan has one last
node, and the nodes of different branches are at least `gap` apart -/
structure Closed (gap : Int) (c : Canvas) : Prop where
  sound : Sound c
  grounded : ∀ a i t, c.headAt a i = some t → c.Places a
  joined : ∀ a, c.connections.Converges a
  single : ∀ n ∈ c.nodes, ∀ m ∈ c.nodes, n.branch = m.branch → c.headAt n.name 0 = none → c.headAt m.name 0 = none →
    n = m
  apart : ∀ n ∈ c.nodes, ∀ m ∈ c.nodes, n.branch ≠ m.branch → n.y + gap ≤ m.y ∨ m.y + gap ≤ n.y

theorem closed_empty (gap : Int) (sources : Identifiers) : Closed gap (.empty sources) where
  sound := sound_empty sources
  grounded a i t ht := by
    simp [headAt, Connections.headAt, Canvas.empty, Connections.empty, Connections.portAt, Connections.ports,
      Connections.portTable, Table.get?] at ht
  joined a := by
    refine Or.inl fun i _ => ?_
    simp [Connections.headAt, Canvas.empty, Connections.empty, Connections.portAt, Connections.ports,
      Connections.portTable, Table.get?]
  single := by simp [Canvas.empty]
  apart := by simp [Canvas.empty]

variable {gap : Int} {s : BranchStart} {c d : Canvas}

/-- a branch that is not on the canvas yet can begin -/
theorem Closed.laying (h : Closed gap c) {branch : Option Nat} (hnew : ∀ n ∈ c.nodes, n.branch ≠ branch) {top y : Int}
    (hy : top ≤ y) : Laying ⟨c, branch, top⟩ [] [] { c with branch := branch, lowestY := y } where
  sound := h.sound.step (.turned c branch y)
  branch := rfl
  old n hn := Or.inr hn
  kept a i t ht := ht
  grounded := h.grounded
  placed := by simp
  closed a _ := h.joined a
  led n hn hbranch := absurd hbranch (hnew n hn)
  rows n hn hbranch := absurd hbranch (hnew n hn)
  lowest := hy

/-- nothing is left open after a branch that leaves one end and stands apart from what was there -/
theorem Closed.extend (h : Closed gap s.canvas) {a : String} (hlaid : Laying s [] [a] d)
    (hapart : ∀ n ∈ s.canvas.nodes, ∀ m ∈ d.nodes, m.branch = s.branch → n.y + gap ≤ m.y ∨ m.y + gap ≤ n.y) :
    Closed gap d := by
  have hopen : ∀ name, d.headAt name 0 = none → s.canvas.headAt name 0 = none := by
    intro name hnone
    cases hhead : s.canvas.headAt name 0 with
    | none => rfl
    | some t => exact absurd (hlaid.kept _ _ _ hhead) (by simp [hnone])
  refine ⟨hlaid.sound, hlaid.grounded, fun name => hlaid.closed name List.not_mem_nil, ?_, ?_⟩
  · intro n hn m hm hbranch hnone hnone'
    by_cases hnew : n.branch = s.branch
    · have hname := List.mem_singleton.1 (hlaid.led n hn hnew hnone)
      have hname' := List.mem_singleton.1 (hlaid.led m hm (hbranch ▸ hnew) hnone')
      exact hlaid.sound.eq_of_name hn hm (hname.trans hname'.symm)
    · have hold := (hlaid.old n hn).resolve_left hnew
      have hold' := (hlaid.old m hm).resolve_left (hbranch ▸ hnew)
      exact h.single n hold m hold' hbranch (hopen _ hnone) (hopen _ hnone')
  · intro n hn m hm hbranch
    rcases hlaid.old n hn with hnew | hold
    · have hold' := (hlaid.old m hm).resolve_left fun hm => hbranch (hnew.trans hm.symm)
      exact (hapart m hold' n hn hnew).symm
    · rcases hlaid.old m hm with hnew' | hold'
      · exact hapart n hold m hm hnew'
      · exact h.apart n hold m hold' hbranch

end Canvas

namespace Synthesis

open Canvas

variable {cfg : BuildConfig} {s : BranchStart} {c : Canvas} {at' : Cursor} {gap : Int}

theorem addTrigger_laying (h : Laying s [] [] c) (text : String) (x : Int) {y : Int} (hy : s.top ≤ y) :
    Laying s [] [(addTrigger c text x y).1] (addTrigger c text x y).2 := by
  have hadd : ∀ r : NodeRequest, r.y = y → Laying s [] [(c.add r).1] (c.add r).2 := by
    rintro r rfl
    have hgrown : Laying s [] [(c.newNode r).name] (c.grow r []) := h.grow (by simp) hy (by simp) (by simp)
    rwa [grow_nil, ← add_name] at hgrown
  have hplaced : ∀ lower, Laying s [] [(placeTrigger c lower x y).1] (placeTrigger c lower x y).2 := by
    intro lower
    unfold placeTrigger
    dsimp only
    split
    · exact hadd _ rfl
    · split
      · dsimp only
        exact (hadd _ rfl).note _ _
      · split
        · exact hadd _ rfl
        · exact hadd _ rfl
  unfold addTrigger
  dsimp only
  exact (hplaced (Text.lower text)).note _ _

theorem addResponse_laying (h : Laying s [] [at'.current] c) {y : Int} (hy : s.top ≤ y) :
    ∃ a, Laying s [] [a] (addResponse c at' y) := by
  unfold addResponse
  dsimp only
  split
  · exact ⟨_, h⟩
  · rw [connect_add]
    generalize hq : NodeRequest.mk responseType "Respond to Webhook" at'.x y [] 1 .response = q
    have hfeeds : ∀ f ∈ [Feed.mk at'.current 0 0], c.MayLeave [] f :=
      List.forall_mem_singleton.2 ⟨h.placed _ List.mem_cons_self, Or.inl rfl⟩
    have hanswered : Laying s [] [(c.newNode q).name] (c.grow q [⟨at'.current, 0, 0⟩]) := by
      refine h.grow hfeeds (hq ▸ hy) (fun a ha => ?_) (by simp)
      exact Or.inr ⟨_, List.mem_cons_self, (List.mem_singleton.1 ha).symm, rfl⟩
    exact ⟨_, hanswered⟩

/-- a branch that owes an answer leaves one end -/
theorem layBranch_laying (hspacing : 0 ≤ cfg.siblingSpacing) (h : Closed gap c) {number : Nat}
    (hnew : ∀ n ∈ c.nodes, n.branch ≠ some number) {b : PlanBranch} (howes : owesResponse b = true) (y : Int) :
    ∃ a, Laying ⟨c, some number, y⟩ [] [a] (layBranch cfg c number b y) := by
  have htrigger := addTrigger_laying (h.laying hnew (Int.le_refl y)) b.triggerType cfg.startX (Int.le_refl y)
  unfold layBranch
  dsimp only
  generalize addTrigger _ b.triggerType cfg.startX y = out at htrigger ⊢
  obtain ⟨trigger, d⟩ := out
  rw [howes]
  dsimp only
  generalize hfirst : Cursor.mk trigger (cfg.startX + cfg.spacingX) = first
  have hbegun : Laying ⟨c, some number, y⟩ [] [first.current] d := hfirst ▸ htrigger
  have hall := layAll_laying cfg hspacing hbegun (Int.le_refl y) b.requirements
  generalize layAll cfg true d first y b.requirements = out at hall ⊢
  rw [if_pos rfl]
  exact addResponse_laying hall (Int.le_refl y)

/-- branches below one another leave nothing open -/
theorem layBranches_closed (hspacing : 0 ≤ cfg.siblingSpacing) (hgap : gap ≤ cfg.branchGap) (hpos : 0 ≤ gap)
    (h : Closed gap c) {number : Nat} {y : Int} (hy : cfg.startY ≤ y)
    (hold : ∀ n ∈ c.nodes, (∃ k, n.branch = some k ∧ k < number) ∧ cfg.startY ≤ n.y ∧ n.y + gap ≤ y)
    {bs : List PlanBranch} (howes : ∀ b ∈ bs, owesResponse b = true) :
    Closed gap (layBranches cfg c number y bs) ∧
      ∀ n ∈ (layBranches cfg c number y bs).nodes, n.branch ≠ none ∧ cfg.startY ≤ n.y := by
  induction bs generalizing c number y with
  | nil =>
    refine ⟨h, fun n hn => ?_⟩
    obtain ⟨⟨k, hk, -⟩, hstart, -⟩ := hold n hn
    exact ⟨by simp [hk], hstart⟩
  | cons b rest ih =>
    rw [List.forall_mem_cons] at howes
    have hnew : ∀ n ∈ c.nodes, n.branch ≠ some number := by
      intro n hn hbranch
      obtain ⟨⟨k, hk, hlt⟩, -⟩ := hold n hn
      cases hk.symm.trans hbranch
      exact Nat.lt_irrefl _ hlt
    obtain ⟨a, hlaid⟩ := layBranch_laying hspacing h hnew howes.1 y
    rw [layBranches]
    generalize layBranch cfg c number b y = d at hlaid ⊢
    have hlowest : y ≤ d.lowestY := hlaid.lowest
    have hclosed : Closed gap d := h.extend hlaid fun n hn m hm hbranch =>
      Or.inl ((hold n hn).2.2.trans (hlaid.rows m hm hbranch).1)
    refine ih hclosed (by omega) (fun n hn => ?_) howes.2
    rcases hlaid.old n hn with hbranch | hn'
    · obtain ⟨htop, hlow⟩ := hlaid.rows n hn hbranch
      have htop : y ≤ n.y := htop
      exact ⟨⟨number, hbranch, Nat.lt_succ_self number⟩, by omega, by omega⟩
    · obtain ⟨⟨k, hk, hlt⟩, hstart, hfar⟩ := hold n hn'
      exact ⟨⟨k, hk, Nat.lt_succ_of_lt hlt⟩, hstart, by omega⟩

theorem addErrorHandling_closed (h : Closed gap c) (hgap : gap ≤ 200)
    (hold : ∀ n ∈ c.nodes, n.branch ≠ none ∧ cfg.startY ≤ n.y) : Closed gap (addErrorHandling cfg c) := by
  let s : BranchStart := ⟨c, none, min c.lowestY (cfg.startY - 200)⟩
  have hbegun : Laying s [] [] { c with branch := none } := h.laying (fun n hn => (hold n hn).1) (min_le_left _ _)
  unfold addErrorHandling
  dsimp only
  generalize hr : NodeRequest.mk (Catalog.fullTag "errorTrigger") _ _ _ _ _ _ = r
  generalize hr' : NodeRequest.mk (Catalog.fullTag "emailSend") _ _ _ _ _ _ = r'
  rw [connect_add, add_name]
  generalize hd : ({ c with branch := none } : Canvas) = d at hbegun ⊢
  have hy : s.top ≤ r.y := hr ▸ min_le_right _ _
  have hy' : s.top ≤ r'.y := hr' ▸ min_le_right _ _
  have hfirst : Laying s [] [(d.newNode r).name] (d.grow r []) := hbegun.grow (by simp) hy (by simp) (by simp)
  rw [grow_nil] at hfirst
  have hfeeds : ∀ f ∈ [Feed.mk (d.newNode r).name 0 0], (d.add r).2.MayLeave [] f :=
    List.forall_mem_singleton.2 ⟨hfirst.placed _ List.mem_cons_self, Or.inl rfl⟩
  have hboth : Laying s [] [((d.add r).2.newNode r').name] ((d.add r).2.grow r' [⟨(d.newNode r).name, 0, 0⟩]) := by
    refine hfirst.grow hfeeds hy' (fun a ha => ?_) (by simp)
    exact Or.inr ⟨_, List.mem_cons_self, (List.mem_singleton.1 ha).symm, rfl⟩
  have hnodes : ∀ m ∈ ((d.add r).2.grow r' [⟨(d.newNode r).name, 0, 0⟩]).nodes,
      m ∈ c.nodes ∨ m.y = cfg.startY - 200 := by
    intro m hm
    rw [nodes_grow, nodes_add, ← hd] at hm
    simp only [List.append_assoc, List.mem_append, List.mem_cons, List.not_mem_nil, or_false] at hm
    rcases hm with hm | rfl | hm
    · exact Or.inl hm
    · exact Or.inr (hr ▸ rfl)
    · exact Or.inr (hm ▸ hr' ▸ rfl)
  refine h.extend (hboth.note _ _) fun n hn m hm hbranch => Or.inr ?_
  have hrow := (hnodes m hm).resolve_left fun hm' => (hold m hm').1 hbranch
  have hstart := (hold n hn).2
  omega

/-- **The layout of a plan whose branches all owe an answer leaves nothing open.** -/
theorem lay_closed (hspacing : 0 ≤ cfg.siblingSpacing) (hgap : gap ≤ cfg.branchGap) (hgap' : gap ≤ 200) (hpos : 0 ≤ gap)
    (sources : Identifiers) {p : Plan} (howes : ∀ b ∈ p.branches, owesResponse b = true) :
    Closed gap (lay cfg sources p) := by
  obtain ⟨hclosed, hrows⟩ := layBranches_closed hspacing hgap hpos (closed_empty gap sources) (Int.le_refl cfg.startY)
    (by simp [Canvas.empty]) howes
  unfold lay
  dsimp only
  split
  · exact addErrorHandling_closed hclosed hgap' hrows
  · exact hclosed

end Synthesis

end WorkflowGraph
