import Mathlib.Tactic
import WorkflowGraph.Proofs.Connections.Ports
import WorkflowGraph.Synthesis.Build
/-
What happens to a canvas. Whatever motif a branch is laid out by, only few things happen: a decision is noted, another
branch begins, a node is added under a name of its own, an edge joins two nodes that stand on the canvas, or a node gets
more ports.

- `Canvas.grow`: a node added together with the edges to it, as every part of a layout but a trigger is placed.
- `Leads`: some steps lead from one canvas to another.
-/
namespace WorkflowGraph

/-- an edge to come: the node and the port that it leaves by, and the input that it leads to -/
structure Feed where
  source : String
  port : Nat
  index : Nat

namespace Connections

/-- edges to one target -/
def feed (c : Connections) (target : String) (feeds : List Feed) : Connections :=
  feeds.foldl (fun c f => c.addEdge (.text f.source) mainType f.port (.plain target mainType f.index)) c

theorem joins_feed {c : Connections} {target a b : String} {feeds : List Feed} :
    (c.feed target feeds).Joins (.text a) b ↔ c.Joins (.text a) b ∨ (target = b ∧ ∃ f ∈ feeds, f.source = a) := by
  induction feeds generalizing c with
  | nil => simp [feed]
  | cons f feeds ih =>
    have hhead : (c.addEdge (.text f.source) mainType f.port (.plain target mainType f.index)).Joins (.text a) b ↔
        c.Joins (.text a) b ∨ (f.source = a ∧ target = b) := by
      rw [joins_addEdge, Key.text_beq_text, decide_eq_true_iff]
      rfl
    rw [feed, List.foldl_cons, ← feed, ih, hhead]
    simp only [List.mem_cons, exists_eq_or_imp]
    tauto

end Connections

namespace Canvas

/-! ## Nodes with the edges to them -/

/-- the node that is added on request -/
def newNode (c : Canvas) (r : NodeRequest) : PlacedNode where
  id := c.nodes.length + 1
  name := c.names.freshName r.wanted
  type := r.type
  typeVersion := r.typeVersion
  x := r.x
  y := r.y
  parameters := parametersFor (Catalog.shortType r.type) (c.names.freshName r.wanted) r.parameters
  webhookId := if Catalog.shortType r.type = "webhook" then some c.sources.webhookId.1 else none
  branch := c.branch
  origin := r.origin

/-- edges to a node -/
def feed (c : Canvas) (target : String) (feeds : List Feed) : Canvas :=
  { c with connections := c.connections.feed target feeds }

/-- a node added with edges to it -/
def grow (c : Canvas) (r : NodeRequest) (feeds : List Feed) : Canvas := (c.add r).2.feed (c.newNode r).name feeds

section

variable (c : Canvas) (r : NodeRequest) (feeds : List Feed)

theorem parameters_newNode :
    (c.newNode r).parameters = parametersFor (Catalog.shortType r.type) (c.newNode r).name r.parameters := by
  unfold newNode
  rfl

theorem add_name : (c.add r).1 = (c.newNode r).name := by
  unfold add newNode
  rfl

/-- a request adds its node and takes the node's name -/
theorem add_canvas : (c.add r).2 =
    { c with
      nodes := c.nodes ++ [c.newNode r]
      names := c.names.take (c.newNode r).name
      sources := if Catalog.shortType r.type = "webhook" then c.sources.webhookId.2 else c.sources
      lowestY := max c.lowestY r.y } := by
  unfold add newNode
  by_cases h : Catalog.shortType r.type = "webhook" <;> simp [h, NameRegistry.claim]

@[simp] theorem nodes_add : (c.add r).2.nodes = c.nodes ++ [c.newNode r] := by rw [add_canvas]

@[simp] theorem names_add : (c.add r).2.names = c.names.take (c.newNode r).name := by rw [add_canvas]

@[simp] theorem connections_add : (c.add r).2.connections = c.connections := by rw [add_canvas]

@[simp] theorem branch_add : (c.add r).2.branch = c.branch := by rw [add_canvas]

@[simp] theorem lowestY_add : (c.add r).2.lowestY = max c.lowestY r.y := by rw [add_canvas]

/-- edges change the connections only -/
theorem grow_canvas : c.grow r feeds =
    { (c.add r).2 with connections := (c.add r).2.connections.feed (c.newNode r).name feeds } := rfl

@[simp] theorem nodes_grow : (c.grow r feeds).nodes = c.nodes ++ [c.newNode r] := by
  rw [grow_canvas, nodes_add]

@[simp] theorem names_grow : (c.grow r feeds).names = c.names.take (c.newNode r).name := by
  rw [grow_canvas, names_add]

@[simp] theorem connections_grow :
    (c.grow r feeds).connections = c.connections.feed (c.newNode r).name feeds := by
  rw [grow_canvas, connections_add]

@[simp] theorem branch_grow : (c.grow r feeds).branch = c.branch := by
  rw [grow_canvas, branch_add]

@[simp] theorem lowestY_grow : (c.grow r feeds).lowestY = max c.lowestY r.y := by
  rw [grow_canvas, lowestY_add]

theorem grow_nil : c.grow r [] = (c.add r).2 := by
  rw [grow_canvas]
  generalize (c.add r).2 = d
  rfl

theorem feed_add : (c.add r).2.feed (c.add r).1 feeds = c.grow r feeds := by
  rw [add_name, grow]

/-- a node with one edge to it -/
theorem connect_add (source : String) (port index : Nat) :
    (c.add r).2.connect source port (c.add r).1 index = c.grow r [⟨source, port, index⟩] := by
  rw [add_name, grow_canvas]
  rfl

end

/-- the edges from ends, the first having number `k`, to a merge node -/
def mergeFeeds (k : Nat) : List String → List Feed
  | [] => []
  | e :: rest => ⟨e, 0, (Catalog.mergeInput k).toNat⟩ :: mergeFeeds (k + 1) rest

theorem source_mem_of_mem_mergeFeeds {k : Nat} {ends : List String} {f : Feed} (h : f ∈ mergeFeeds k ends) :
    f.source ∈ ends ∧ f.port = 0 := by
  induction ends generalizing k with
  | nil => simp [mergeFeeds] at h
  | cons e rest ih =>
    rcases List.mem_cons.1 h with rfl | h
    · exact ⟨List.mem_cons_self, rfl⟩
    · exact (ih h).imp_left (List.mem_cons_of_mem e)

theorem connectEnds_eq_feed (c : Canvas) (merge : String) (k : Nat) (ends : List String) :
    c.connectEnds merge k ends = c.feed merge (mergeFeeds k ends) := by
  induction ends generalizing c k with
  | nil => rfl
  | cons e rest ih => exact ih (c.connect e 0 merge (Catalog.mergeInput k).toNat) (k + 1)

/-! ## Steps -/

/-- a node with a name stands on the canvas -/
def Places (c : Canvas) (name : String) : Prop := ∃ n ∈ c.nodes, n.name = name

/-- one thing that happens to a canvas -/
inductive Step : Canvas → Canvas → Prop
  /-- a decision is noted -/
  | noted (c : Canvas) (rule : String) (detail : List (String × Value)) : Step c (c.note rule detail)
  /-- the nodes to come are for another branch, whose rows begin elsewhere -/
  | turned (c : Canvas) (branch : Option Nat) (y : Int) : Step c { c with branch := branch, lowestY := y }
  /-- a node is added -/
  | added (c : Canvas) (r : NodeRequest) : Step c (c.add r).2
  /-- an edge joins two nodes -/
  | connected (c : Canvas) (source : String) (port : Nat) (target : String) (index : Nat) (hsource : c.Places source)
      (htarget : c.Places target) : Step c (c.connect source port target index)
  /-- a node has at least some number of main ports -/
  | opened (c : Canvas) (source : String) (count : Nat) (hsource : c.Places source) :
      Step c (c.openPorts source count)

/-- some steps lead from one canvas to another -/
def Leads : Canvas → Canvas → Prop := Relation.ReflTransGen Step

theorem Leads.refl (c : Canvas) : Leads c c := Relation.ReflTransGen.refl

theorem Leads.trans {c d e : Canvas} (h : Leads c d) (h' : Leads d e) : Leads c e := Relation.ReflTransGen.trans h h'

theorem Leads.tail {c d e : Canvas} (h : Leads c d) (h' : Step d e) : Leads c e := Relation.ReflTransGen.tail h h'

theorem leads_of_step {c d : Canvas} (h : Step c d) : Leads c d := Relation.ReflTransGen.single h

theorem leads_feed {c : Canvas} {target : String} {feeds : List Feed} (ht : c.Places target)
    (h : ∀ f ∈ feeds, c.Places f.source) : Leads c (c.feed target feeds) := by
  induction feeds generalizing c with
  | nil => exact Leads.refl c
  | cons f feeds ih =>
    rw [List.forall_mem_cons] at h
    have hstep : Step c (c.connect f.source f.port target f.index) := .connected c _ _ _ _ h.1 ht
    exact (leads_of_step hstep).trans (ih (c := c.connect f.source f.port target f.index) ht h.2)

theorem places_newNode (c : Canvas) (r : NodeRequest) : (c.add r).2.Places (c.newNode r).name :=
  ⟨c.newNode r, by simp, rfl⟩

theorem places_grow (c : Canvas) (r : NodeRequest) (feeds : List Feed) : (c.grow r feeds).Places (c.newNode r).name :=
  ⟨c.newNode r, by simp, rfl⟩

theorem leads_grow {c : Canvas} {r : NodeRequest} {feeds : List Feed} (h : ∀ f ∈ feeds, c.Places f.source) :
    Leads c (c.grow r feeds) := by
  have hfed : ∀ f ∈ feeds, (c.add r).2.Places f.source := by
    intro f hf
    obtain ⟨n, hn, hname⟩ := h f hf
    exact ⟨n, by simp [hn], hname⟩
  exact (leads_of_step (.added c r)).trans (leads_feed (c.places_newNode r) hfed)

end Canvas

end WorkflowGraph
