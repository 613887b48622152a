import WorkflowGraph.Proofs.Synthesis.Requirements
/-
The switches of a plan. A switch that routes has a port for each of its rules, from the moment it is placed, and once
its routes are laid out none of its ports is empty, unless nothing could be routed. Every other node of that type
declares no rules.

- `Steady`: what new edges leave of the ports of a node.
- `Switches.growth`: what growth keeps of the switches.
-/
namespace WorkflowGraph

namespace Connections

/-! ## Ports under new edges -/

/-- no main port of a source is empty -/
def Wired (c : Connections) (source : Key) : Prop :=
  ∀ i < (c.ports source mainType).length, c.portAt source mainType i ≠ []

theorem Wired.not_empty {c : Connections} {source : Key} (h : c.Wired source) (k : Nat) :
    (c.ports source mainType)[k]? ≠ some [] := by
  intro hk
  obtain ⟨hlt, -⟩ := List.getElem?_eq_some_iff.1 hk
  refine h k hlt ?_
  rw [portAt, hk]
  rfl

/-- a source that has ports keeps them, and where none was empty none is -/
structure Steady (source : Key) (c d : Connections) : Prop where
  count : c.ports source mainType ≠ [] → (d.ports source mainType).length = (c.ports source mainType).length
  wired : c.Wired source → d.Wired source

theorem Steady.refl (source : Key) (c : Connections) : Steady source c c := ⟨fun _ => rfl, id⟩

theorem Steady.trans {source : Key} {c d e : Connections} (h : Steady source c d) (h' : Steady source d e) :
    Steady source c e where
  count hne := by
    have hcount := h.count hne
    have hne' : d.ports source mainType ≠ [] := by
      rw [← List.length_pos_iff, hcount]
      exact List.length_pos_iff.2 hne
    rw [h'.count hne', hcount]
  wired hwired := h'.wired (h.wired hwired)

theorem steady_of_ports_eq {source : Key} {c d : Connections}
    (h : d.ports source mainType = c.ports source mainType) : Steady source c d := by
  refine ⟨fun _ => by rw [h], fun hwired i hi => ?_⟩
  rw [h] at hi
  rw [portAt, h]
  exact hwired i hi

/-- an edge leaves by a port that is there, or by the first one -/
theorem steady_addEdge {c : Connections} {source : Key} {port : Nat}
    (h : port = 0 ∨ port < (c.ports source mainType).length) (e : Edge) (source' : Key) :
    Steady source' c (c.addEdge source mainType port e) := by
  by_cases hsame : (source == source') = true
  · rw [ports_congr c hsame] at h
    have hports : ((c.addEdge source mainType port e).ports source' mainType).length =
        max (port + 1) (c.ports source' mainType).length := by
      rw [ports_addEdge, if_pos ⟨hsame, rfl⟩, List.length_modify, length_pad, ports_congr c hsame]
    refine ⟨fun hne => ?_, fun hwired i hi => ?_⟩
    · have hpos := List.length_pos_iff.2 hne
      omega
    · rw [portAt_addEdge]
      split
      · exact List.ne_nil_of_mem ((mem_insertEdge _ _ _).2 (Or.inl rfl))
      · rename_i hother
        have hne : port ≠ i := fun heq => hother ⟨hsame, rfl, heq⟩
        exact hwired i (by omega)
  · exact steady_of_ports_eq (by rw [ports_addEdge, if_neg fun h => hsame h.1])

theorem steady_feed {c : Connections} {feeds : List Feed}
    (h : ∀ f ∈ feeds, f.port = 0 ∨ f.port < (c.ports (.text f.source) mainType).length) (target : String)
    (source : Key) : Steady source c (c.feed target feeds) := by
  induction feeds generalizing c with
  | nil => exact Steady.refl source c
  | cons f feeds ih =>
    rw [List.forall_mem_cons] at h
    have hfirst := steady_addEdge h.1 (.plain target mainType f.index)
    refine (hfirst source).trans (ih fun f' hf' => (h.2 f' hf').imp_right fun hlt => ?_)
    have hne : c.ports (.text f'.source) mainType ≠ [] := List.ne_nil_of_length_pos (Nat.zero_lt_of_lt hlt)
    rw [(hfirst _).count hne]
    exact hlt

/-- where no edge leaves the ports stay as they are -/
theorem ports_feed_of_others {c : Connections} {feeds : List Feed} {name : String}
    (h : ∀ f ∈ feeds, f.source ≠ name) (target : String) :
    (c.feed target feeds).ports (.text name) mainType = c.ports (.text name) mainType := by
  induction feeds generalizing c with
  | nil => rfl
  | cons f feeds ih =>
    rw [List.forall_mem_cons] at h
    have hother : ¬ ((Key.text f.source == Key.text name) = true ∧ mainType = mainType) := by
      rw [Key.text_beq_text, decide_eq_true_iff]
      exact fun hsame => h.1 hsame.1
    have hrest := ih (c := c.addEdge (.text f.source) mainType f.port (.plain target mainType f.index)) h.2
    rw [ports_addEdge, if_neg hother] at hrest
    exact hrest

end Connections

/-! ## Rules -/

/-- how many rules the parameters of a switch declare -/
def declaredRules (params : Fields) : Nat :=
  match Value.field "rules" params with
  | .object rules =>
    match Value.field "rules" rules with
    | .list branches => branches.length
    | _ => 0
  | _ => 0

namespace PlacedNode

theorem isSwitch_toNode (n : PlacedNode) : n.toNode.isSwitch = true ↔ Catalog.shortType n.type = "switch" := by
  rw [Node.isSwitch, Node.shortType, tag_toNode, beq_iff_eq]

theorem declaredBranches_toNode (n : PlacedNode) :
    Validation.declaredBranches n.toNode = .ok (declaredRules n.parameters) := by
  have hparameters : n.toNode.get "parameters" = .object n.parameters := by
    simp [Node.get, Value.field, toNode, Table.get?, Key.text_beq_text]
  rw [Validation.declaredBranches, hparameters]
  unfold declaredRules
  dsimp only
  cases Value.field "rules" n.parameters with
  | object rules =>
    dsimp only
    cases Value.field "rules" rules <;> rfl
  | _ => rfl

end PlacedNode

theorem declaredRules_default (name : String) : declaredRules (Canvas.parametersFor "switch" name []) = 0 := rfl

theorem declaredRules_switchRules (name : String) (labels : List String) :
    declaredRules (Canvas.parametersFor "switch" name (Synthesis.switchRules labels)) = labels.length := by
  have hrules : declaredRules (Canvas.parametersFor "switch" name (Synthesis.switchRules labels)) =
      (labels.zipIdx.map fun route => Synthesis.routeRule route.1 route.2).length := rfl
  rw [hrules, List.length_map, List.length_zipIdx]

namespace Canvas

variable {cfg : BuildConfig} {p : Plan}

/-! ## Settled switches -/

/-- the ports of a switch, given the nodes placed before it: it declares no rules and none of its ports is empty, or it
was opened for a requirement, has a port for each of its rules, and none of them is empty if anything could be routed -/
inductive Settled (p : Plan) (c : Canvas) (before : List PlacedNode) (n : PlacedNode) : Prop
  | plain (hrules : declaredRules n.parameters = 0) (hwired : c.connections.Wired (.text n.name)) :
      Settled p c before n
  | routed (q : Requirement) (rest : List Requirement) (horigin : n.origin = .step q) (hq : q.isSwitch = true)
      (hasked : requirements before n.branch ++ q :: rest = p.asked n.branch)
      (hrules : declaredRules n.parameters ≠ 0)
      (hcount : (c.portsOf n.name).length = declaredRules n.parameters)
      (hwired : Synthesis.routesOf (Synthesis.switchLabels q.text) rest = [] ∨ c.connections.Wired (.text n.name)) :
      Settled p c before n

theorem Settled.steady {c d : Canvas} {before : List PlacedNode} {n : PlacedNode} (h : Settled p c before n)
    (hsteady : Connections.Steady (.text n.name) c.connections d.connections) : Settled p d before n := by
  cases h with
  | plain hrules hwired => exact .plain hrules (hsteady.wired hwired)
  | routed q rest horigin hq hasked hrules hcount hwired =>
    have hne : c.portsOf n.name ≠ [] := by
      rw [← List.length_pos_iff, hcount]
      exact Nat.pos_of_ne_zero hrules
    exact .routed q rest horigin hq hasked hrules ((hsteady.count hne).trans hcount) (hwired.imp_right hsteady.wired)

/-- no ports without a node, and every switch is settled, apart from those that are being laid out -/
structure Switches (p : Plan) (busy : List String) (c : Canvas) : Prop where
  closed : ∀ name, (∀ n ∈ c.nodes, n.name ≠ name) → c.portsOf name = []
  settled : EachAfter (fun before n => n.toNode.isSwitch = true → n.name ∉ busy → Settled p c before n) c.nodes

theorem switches_empty (p : Plan) (sources : Identifiers) : Switches p [] (.empty sources) where
  closed _ _ := rfl
  settled := eachAfter_nil _

theorem Switches.unchanged {busy : List String} {c d : Canvas} (h : Switches p busy c) (hnodes : d.nodes = c.nodes)
    (hconnections : d.connections = c.connections) : Switches p busy d where
  closed name hname := by
    rw [portsOf, hconnections]
    exact h.closed name (hnodes ▸ hname)
  settled := by
    rw [hnodes]
    exact h.settled.imp fun before n hn hswitch hbusy =>
      (hn hswitch hbusy).steady (hconnections ▸ Connections.Steady.refl _ _)

section

variable {busy : List String} {c : Canvas} (h : Switches p busy c) {r : NodeRequest} {feeds : List Feed}
  (hfeeds : ∀ f ∈ feeds, c.Places f.source ∧ (f.port = 0 ∨ f.port < (c.portsOf f.source).length))

include h hfeeds

theorem Switches.grow
    (hnode : (c.newNode r).toNode.isSwitch = true → (c.newNode r).name ∉ busy →
      Settled p (c.grow r feeds) c.nodes (c.newNode r)) : Switches p busy (c.grow r feeds) where
  closed name hname := by
    rw [nodes_grow, List.forall_mem_append] at hname
    have hothers : ∀ f ∈ feeds, f.source ≠ name := by
      rintro f hf rfl
      obtain ⟨n, hn, hsource⟩ := (hfeeds f hf).1
      exact hname.1 n hn hsource
    rw [portsOf, connections_grow, Connections.ports_feed_of_others hothers]
    exact h.closed name hname.1
  settled := by
    rw [nodes_grow]
    refine EachAfter.snoc (h.settled.imp fun before n hn hswitch hbusy => ?_) hnode
    have hsteady : Connections.Steady (.text n.name) c.connections (c.grow r feeds).connections := by
      rw [connections_grow]
      exact Connections.steady_feed (fun f hf => (hfeeds f hf).2) _ _
    exact (hn hswitch hbusy).steady hsteady

variable (hnew : ∀ n ∈ c.nodes, n.name ≠ (c.newNode r).name)

include hnew

/-- a new node has no ports yet -/
theorem Switches.portsOf_grow : (c.grow r feeds).portsOf (c.newNode r).name = [] := by
  have hothers : ∀ f ∈ feeds, f.source ≠ (c.newNode r).name := by
    rintro f hf heq
    obtain ⟨n, hn, hname⟩ := (hfeeds f hf).1
    exact hnew n hn (hname.trans heq)
  rw [portsOf, connections_grow, Connections.ports_feed_of_others hothers]
  exact h.closed _ hnew

/-- a node that is not opened declares no rules -/
theorem Switches.grow_plain (hplain : r.Plain) : Switches p busy (c.grow r feeds) := by
  refine h.grow hfeeds fun hswitch _ => .plain ?_ fun i hi => ?_
  · have hshort : Catalog.shortType r.type = "switch" := (c.newNode r).isSwitch_toNode.1 hswitch
    rw [parameters_newNode, hplain hshort, hshort, declaredRules_default]
  · have hlength : i < ((c.grow r feeds).portsOf (c.newNode r).name).length := hi
    rw [h.portsOf_grow hfeeds hnew] at hlength
    exact absurd hlength (Nat.not_lt_zero i)

end

theorem Switches.add_plain {busy : List String} {c : Canvas} (h : Switches p busy c) {r : NodeRequest}
    (hnew : ∀ n ∈ c.nodes, n.name ≠ (c.newNode r).name) (hplain : r.Plain) : Switches p busy (c.add r).2 := by
  rw [← grow_nil]
  exact h.grow_plain (by simp) hnew hplain

/-- a node has only its own ports opened -/
theorem Switches.openPorts {busy : List String} {c : Canvas} (h : Switches p busy c) {source : String}
    (hplaces : c.Places source) (hbusy : source ∈ busy) (count : Nat) : Switches p busy (c.openPorts source count) := by
  have hothers : ∀ name, name ≠ source → (c.openPorts source count).portsOf name = c.portsOf name := by
    intro name hname
    show (c.connections.ensurePorts (.text source) mainType count).ports (.text name) mainType = _
    rw [Connections.ensurePorts, Connections.ports_modifyPorts, if_neg]
    · rfl
    · rw [Key.text_beq_text, decide_eq_true_iff]
      exact fun hsame => hname hsame.1.symm
  constructor
  · intro name hname
    have hne : name ≠ source := by
      rintro rfl
      obtain ⟨n, hn, hsame⟩ := hplaces
      exact hname n hn hsame
    rw [hothers name hne]
    exact h.closed name hname
  · refine h.settled.imp fun before n hn hswitch hfree => (hn hswitch hfree).steady ?_
    have hne : n.name ≠ source := by
      rintro heq
      exact hfree (heq ▸ hbusy)
    exact Connections.steady_of_ports_eq (hothers n.name hne)

theorem Switches.act {busy : List String} {c d : Canvas} (h : Switches p busy c) (hsound : Sound c)
    (hact : Act cfg c d) : Switches p busy d := by
  cases hact with
  | noted rule detail => exact h.unchanged rfl rfl
  | placed r feeds hr hplain hne hfeeds =>
    exact h.grow_plain (fun f hf => ⟨(hfeeds f hf).1.places, (hfeeds f hf).2⟩) (hsound.new r) hplain

/-- a switch that was opened and has its routes is settled -/
theorem Switches.release {c d : Canvas} {name : String} (h : Switches p [name] d) (hsound : Sound d) {m : PlacedNode}
    {added : List PlacedNode} (hnodes : d.nodes = c.nodes ++ m :: added) (hname : m.name = name)
    (hm : Settled p d c.nodes m) : Switches p [] d where
  closed := h.closed
  settled := by
    intro before n after hsplit hswitch _
    by_cases hsame : n.name = name
    · have hn : n ∈ d.nodes := by simp [hsplit]
      have hm' : m ∈ d.nodes := by simp [hnodes]
      obtain rfl : n = m := hsound.eq_of_name hn hm' (hsame.trans hname.symm)
      have hnodup : (before ++ n :: after).Nodup := hsplit ▸ List.Nodup.of_map _ hsound.distinct
      have hothers : n ∉ before ++ after := (List.nodup_cons.1 (List.nodup_middle.1 hnodup)).1
      rw [List.mem_append, not_or] at hothers
      have hparts := (List.append_cons_inj_of_notMem hothers.1 hothers.2).1 (hsplit.symm.trans hnodes)
      rw [hparts.1]
      exact hm
    · exact h.settled before n after hsplit hswitch (by simpa using hsame)

theorem prefix_of_act {c d : Canvas} (h : Act cfg c d) : c.nodes <+: d.nodes := by
  cases h with
  | noted rule detail => exact List.prefix_refl c.nodes
  | placed r feeds hr hplain hne hfeeds =>
    rw [nodes_grow]
    exact List.prefix_append _ _

theorem Switches.acts {busy : List String} {c d : Canvas} (h : Switches p busy c) (hsound : Sound c)
    (hacts : Relation.ReflTransGen (Act cfg) c d) : Sound d ∧ Switches p busy d ∧ c.nodes <+: d.nodes := by
  refine keep_of_acts (I := fun e => Sound e ∧ Switches p busy e ∧ c.nodes <+: e.nodes) ?_ hacts
    ⟨hsound, h, List.prefix_refl _⟩
  rintro d e hact ⟨hsound, h, hkept⟩
  exact ⟨sound_of_leads (Synthesis.leads_of_act hact) hsound, h.act hsound hact, hkept.trans (prefix_of_act hact)⟩

/-- a switch has the ports that are opened with it, and is busy until its routes are laid out -/
theorem Switches.openRouter {c : Canvas} (h : Switches p [] c) (hsound : Sound c) {r : NodeRequest} {feeds : List Feed}
    (hfeeds : ∀ f ∈ feeds, c.Places f.source ∧ (f.port = 0 ∨ f.port < (c.portsOf f.source).length)) (count : Nat) :
    Sound (c.openRouter r feeds count) ∧ Switches p [(c.newNode r).name] (c.openRouter r feeds count) ∧
      ((c.openRouter r feeds count).portsOf (c.newNode r).name).length = count := by
  have hplaces : (c.grow r feeds).Places (c.newNode r).name := c.places_grow r feeds
  have hgrown : Sound (c.grow r feeds) := sound_of_leads (leads_grow fun f hf => (hfeeds f hf).1) hsound
  have hbusy : Switches p [(c.newNode r).name] c :=
    ⟨h.closed, h.settled.imp fun _ _ hn hswitch _ => hn hswitch (List.not_mem_nil)⟩
  have hrouter := hbusy.grow hfeeds fun _ hfree => absurd List.mem_cons_self hfree
  have hempty : (c.grow r feeds).connections.ports (.text (c.newNode r).name) mainType = [] :=
    h.portsOf_grow hfeeds (hsound.new r)
  have hports := Connections.length_ports_ensurePorts (c.grow r feeds).connections (.text (c.newNode r).name) mainType count
  rw [hempty, List.length_nil, Nat.max_zero] at hports
  exact ⟨hgrown.step (.opened _ _ count hplaces), hrouter.openPorts hplaces List.mem_cons_self count, hports⟩

theorem declaredRules_newNode (c : Canvas) {r : NodeRequest} {labels : List String}
    (htype : r.type = Catalog.fullTag "switch") (hrules : r.parameters = Synthesis.switchRules labels) :
    declaredRules (c.newNode r).parameters = labels.length := by
  have hshort : Catalog.shortType r.type = "switch" := by
    rw [htype]
    decide +kernel
  rw [parameters_newNode, hshort, hrules, declaredRules_switchRules]

/-- the routes of a switch settle it -/
theorem Switches.growth {c d : Canvas} (h : Switches p [] c) (hsound : Sound c) (hgrowth : Growth cfg p c d) :
    Switches p [] d := by
  have hturned : ∀ branch y, Switches p [] { c with branch := branch, lowestY := y } :=
    fun branch y => h.unchanged rfl rfl
  cases hgrowth with
  | acted hact => exact h.act hsound hact
  | begun k y r hnew horigin htype hplain =>
    have hturnedSound := hsound.step (.turned c (some k) y)
    exact (hturned (some k) y).add_plain (hturnedSound.new r) hplain
  | routed q rest labels r feeds hq hasked hr horigin htype hrules hlabels hne hfeeds hrouter hroutes hcount hfilled =>
    obtain ⟨hopenSound, hopened, hports⟩ :=
      h.openRouter hsound (fun f hf => ⟨(hfeeds f hf).1.places, (hfeeds f hf).2⟩) labels.length
    have hdeclared := c.declaredRules_newNode htype hrules
    subst hrouter
    obtain ⟨hend, hswitches, added, hadded⟩ := hopened.acts hopenSound hroutes
    have hnodes : d.nodes = c.nodes ++ c.newNode r :: added := by
      have hrouter : (c.openRouter r feeds labels.length).nodes = c.nodes ++ [c.newNode r] := nodes_grow c r feeds
      rw [← hadded, hrouter, List.append_assoc]
      rfl
    rw [hports] at hcount
    refine hswitches.release hend hnodes rfl (.routed q rest horigin hq hasked ?_ (hcount.trans hdeclared.symm) ?_)
    · rw [hdeclared]
      exact fun hzero => hlabels (List.length_eq_zero_iff.1 hzero)
    · refine hfilled.imp_right fun hfilled i hi => hfilled i ?_
      rwa [← hcount]
  | handled r r' horigin horigin' htype htype' hplain hplain' hx =>
    have hturnedSound := hsound.step (.turned c none c.lowestY)
    have hfirst : Switches p [] ({ c with branch := none }.add r).2 :=
      (hturned none c.lowestY).add_plain (hturnedSound.new r) hplain
    have hfirstSound := hturnedSound.step (.added _ r)
    exact hfirst.grow_plain (List.forall_mem_singleton.2 ⟨places_newNode _ r, Or.inl rfl⟩) (hfirstSound.new r') hplain'

end Canvas

namespace Synthesis

open Canvas

theorem switches_lay (cfg : BuildConfig) (sources : Identifiers) (p : Plan) : Switches p [] (lay cfg sources p) :=
  lay_induction (switches_empty p sources) fun hleads hgrowth h =>
    h.growth (sound_of_leads hleads (sound_empty sources)) hgrowth

end Synthesis

end WorkflowGraph
