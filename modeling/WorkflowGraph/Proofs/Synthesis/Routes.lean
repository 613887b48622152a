import WorkflowGraph.Proofs.Synthesis.Switches
/-
The routes of a switch. The steps that a switch routes to leave it in the order in which they are listed, the first by
the first port; and the rule of a port has the label that stands at its place among the inferred ones. Labels and routes
are counted, never compared: a route that names a channel leaves by the port of that channel exactly when it is listed at
the place of its label.

- `Keeps`: what is added to a canvas neither adds an edge to a node that was there nor takes one away.
- `openSwitch_opened`: what a switch looks like when its routes have been laid out.
- `build_routes`: the switches of the document of a plan.
- `build_swaps_routes`: two routes listed the other way round leave by each other's ports.
-/
namespace WorkflowGraph

namespace Connections

/-- edges to one target lead there from the ports that they leave by -/
theorem exists_mem_portAt_feed {c : Connections} {target a t : String} {i : Nat} {feeds : List Feed} :
    (∃ e ∈ (c.feed target feeds).portAt (.text a) mainType i, e.node = t) ↔
      (∃ e ∈ c.portAt (.text a) mainType i, e.node = t) ∨ (target = t ∧ ∃ f ∈ feeds, f.source = a ∧ f.port = i) := by
  induction feeds generalizing c with
  | nil => simp [feed]
  | cons f feeds ih =>
    have hhead : (∃ e ∈ (c.addEdge (.text f.source) mainType f.port (.plain target mainType f.index)).portAt (.text a)
        mainType i, e.node = t) ↔
        (∃ e ∈ c.portAt (.text a) mainType i, e.node = t) ∨ (target = t ∧ f.source = a ∧ f.port = i) := by
      simp only [portAt_addEdge, Key.text_beq_text, decide_eq_true_eq, true_and]
      by_cases hplace : f.source = a ∧ f.port = i
      · simp [hplace, mem_insertEdge, Edge.plain, or_comm]
      · simp [hplace]
    rw [feed, List.foldl_cons, ← feed, ih, hhead, or_assoc, ← and_or_left]
    simp only [List.mem_cons, exists_eq_or_imp]

end Connections

/-! ## Rules -/

namespace PlacedNode

/-- the rules that a node declares -/
def rules (n : PlacedNode) : List Value :=
  match Value.field "rules" n.parameters with
  | .object rules =>
    match Value.field "rules" rules with
    | .list branches => branches
    | _ => []
  | _ => []

/-- a rule of a node sends a label to a port -/
def Sends (n : PlacedNode) (label : String) (port : Nat) : Prop :=
  ∃ rule, .object rule ∈ n.rules ∧ Value.field "value2" rule = .text label ∧ Value.field "output" rule = .int port

/-- a switch that declares rules -/
def Routes (n : PlacedNode) : Prop := n.toNode.isSwitch = true ∧ n.rules ≠ []

theorem length_rules (n : PlacedNode) : n.rules.length = declaredRules n.parameters := by
  unfold rules declaredRules
  cases Value.field "rules" n.parameters with
  | object rules =>
    dsimp only
    cases Value.field "rules" rules <;> rfl
  | _ => rfl

/-- the fields of the rule that sends a label to a port -/
def routeFields (label : String) (port : Nat) : Fields :=
  [(.text "operation", .text "equal"), (.text "value2", .text label), (.text "output", .int port)]

theorem value2_routeFields (label : String) (port : Nat) :
    Value.field "value2" (routeFields label port) = .text label := by
  simp [routeFields, Value.field, Table.get?, Key.text_beq_text]

theorem output_routeFields (label : String) (port : Nat) :
    Value.field "output" (routeFields label port) = .int port := by
  simp [routeFields, Value.field, Table.get?, Key.text_beq_text]

/-- the rules made from some labels send each label to the port of its number -/
theorem sends_iff_of_labels {n : PlacedNode} {labels : List String}
    (h : n.parameters = Canvas.parametersFor "switch" n.name (Synthesis.switchRules labels)) (label : String)
    (port : Nat) : n.Sends label port ↔ labels[port]? = some label := by
  have hrules : n.rules = labels.zipIdx.map fun route => Value.object (routeFields route.1 route.2) := by
    rw [rules, h]
    rfl
  rw [Sends, hrules]
  constructor
  · rintro ⟨rule, hmem, hvalue, houtput⟩
    obtain ⟨⟨l, k⟩, hlk, hrule⟩ := List.mem_map.1 hmem
    cases hrule
    rw [value2_routeFields] at hvalue
    rw [output_routeFields] at houtput
    cases hvalue
    cases houtput
    exact List.mem_zipIdx_iff_getElem?.1 hlk
  · intro hlabelled
    have hmem : (label, port) ∈ labels.zipIdx := List.mem_zipIdx_iff_getElem?.2 hlabelled
    exact ⟨_, List.mem_map_of_mem hmem, value2_routeFields label port, output_routeFields label port⟩

end PlacedNode

namespace Canvas

variable {cfg : BuildConfig} {p : Plan} {c d e : Canvas}

/-! ## What is kept -/

/-- a main port of a node leads to a node -/
def LeavesBy (c : Canvas) (source : String) (port : Nat) (target : String) : Prop :=
  ∃ e ∈ c.connections.portAt (.text source) mainType port, e.node = target

/-- edges lead to nodes that stand on the canvas -/
def Grounded (c : Canvas) : Prop := ∀ a i t, c.LeavesBy a i t → c.Places t

theorem grounded_empty (sources : Identifiers) : Grounded (.empty sources) := by
  rintro a i t ⟨e, he, -⟩
  cases he

/-- a canvas has more nodes, and as many edges to those it had as before -/
structure Keeps (c d : Canvas) : Prop where
  nodes : c.nodes <+: d.nodes
  leaves : ∀ a i t, c.Places t → (d.LeavesBy a i t ↔ c.LeavesBy a i t)
  grounded : c.Grounded → d.Grounded

theorem Keeps.places (h : Keeps c d) {name : String} (hp : c.Places name) : d.Places name := by
  obtain ⟨n, hn, hname⟩ := hp
  exact ⟨n, h.nodes.subset hn, hname⟩

theorem Keeps.refl (c : Canvas) : Keeps c c := ⟨List.prefix_refl _, fun _ _ _ _ => Iff.rfl, id⟩

theorem Keeps.trans (h : Keeps c d) (h' : Keeps d e) : Keeps c e where
  nodes := h.nodes.trans h'.nodes
  leaves a i t ht := (h'.leaves a i t (h.places ht)).trans (h.leaves a i t ht)
  grounded hc := h'.grounded (h.grounded hc)

theorem keeps_of_same (hnodes : d.nodes = c.nodes) (hleaves : ∀ a i t, d.LeavesBy a i t ↔ c.LeavesBy a i t) :
    Keeps c d where
  nodes := hnodes ▸ List.prefix_refl _
  leaves a i t _ := hleaves a i t
  grounded hc a i t h := by
    obtain ⟨n, hn, hname⟩ := hc a i t ((hleaves a i t).1 h)
    exact ⟨n, hnodes ▸ hn, hname⟩

theorem keeps_note (c : Canvas) (rule : String) (detail : List (String × Value)) : Keeps c (c.note rule detail) :=
  keeps_of_same rfl fun _ _ _ => Iff.rfl

theorem keeps_openPorts (c : Canvas) (source : String) (count : Nat) : Keeps c (c.openPorts source count) := by
  refine keeps_of_same rfl fun a i t => ?_
  unfold LeavesBy openPorts
  rw [Connections.portAt_ensurePorts]

theorem leavesBy_grow (c : Canvas) (r : NodeRequest) (feeds : List Feed) (a : String) (i : Nat) (t : String) :
    (c.grow r feeds).LeavesBy a i t ↔
      c.LeavesBy a i t ∨ ((c.newNode r).name = t ∧ ∃ f ∈ feeds, f.source = a ∧ f.port = i) := by
  unfold LeavesBy
  rw [connections_grow]
  exact Connections.exists_mem_portAt_feed

/-- a new node and the edges to it change nothing for the others -/
theorem keeps_grow (hc : Sound c) (r : NodeRequest) (feeds : List Feed) : Keeps c (c.grow r feeds) where
  nodes := nodes_grow c r feeds ▸ List.prefix_append _ _
  leaves a i t ht := by
    obtain ⟨n, hn, rfl⟩ := ht
    rw [leavesBy_grow]
    exact or_iff_left fun h => hc.new r n hn h.1.symm
  grounded hg a i t h := by
    rcases (leavesBy_grow c r feeds a i t).1 h with hold | ⟨rfl, -⟩
    · obtain ⟨n, hn, hname⟩ := hg a i t hold
      exact ⟨n, by simp [hn], hname⟩
    · exact ⟨c.newNode r, by simp, rfl⟩

/-- a new node is led to by the ports that its edges leave -/
theorem leavesBy_grow_new (hc : Sound c) (hg : c.Grounded) (r : NodeRequest) (feeds : List Feed) (a : String) (i : Nat) :
    (c.grow r feeds).LeavesBy a i (c.newNode r).name ↔ ∃ f ∈ feeds, f.source = a ∧ f.port = i := by
  rw [leavesBy_grow, or_iff_right]
  · simp
  · intro h
    obtain ⟨n, hn, hname⟩ := hg _ _ _ h
    exact hc.new r n hn hname

/-- a requirement placed with an edge to it is a node added for it -/
theorem exists_grow_place (cfg : BuildConfig) (c : Canvas) (r : Requirement) (x y : Int) (f : Feed) :
    ∃ d q, Keeps c d ∧ Leads c d ∧ d.nodes = c.nodes ∧ q.origin = .step r ∧
      ((c.place cfg r x y).1 = (d.newNode q).name ∧
        (c.place cfg r x y).2.connect f.source f.port (c.place cfg r x y).1 f.index = d.grow q [f]) := by
  unfold place
  split
  · refine ⟨c.note "trigger-step-demoted" [("node", r.name), ("type", r.type)], _, keeps_note _ _ _,
      leads_of_step (.noted _ _ _), rfl, ?_, add_name _ _, connect_add ..⟩
    rfl
  · exact ⟨c, _, Keeps.refl c, Leads.refl c, rfl, rfl, add_name _ _, connect_add ..⟩

/-- routes are laid out one after the other, and route number `j` is led to by port `k + j` alone -/
structure RoutesLaid (c : Canvas) (router : String) (k : Nat) (rs : List Requirement) (d : Canvas) : Prop where
  keeps : Keeps c d
  leads : Leads c d
  nodes : ∃ added, d.nodes = c.nodes ++ added ∧ added.length = rs.length
  led : ∀ j r, rs[j]? = some r → ∃ m, d.nodes[c.nodes.length + j]? = some m ∧ m.origin = .step r ∧
    ∀ i, d.LeavesBy router i m.name ↔ i = k + j

theorem layRoutes_laid (cfg : BuildConfig) (hc : Sound c) (hg : c.Grounded) {router : String}
    (hrouter : c.Places router) (x y : Int) (k : Nat) (rs : List Requirement) : RoutesLaid c router k rs (Synthesis.layRoutes cfg c router x y k rs).1 := by
  induction rs generalizing c k with
  | nil => exact ⟨Keeps.refl c, Leads.refl c, ⟨[], by simp [Synthesis.layRoutes]⟩, by simp⟩
  | cons r rest ih =>
    obtain ⟨c', q, hkeeps, hleads, hnodes, horigin, hname, hgrow⟩ :=
      exists_grow_place cfg c r x (y + k * cfg.siblingSpacing) ⟨router, k, 0⟩
    have hc' := sound_of_leads hleads hc
    have hg' := hkeeps.grounded hg
    have hplaced := keeps_grow hc' q [⟨router, k, 0⟩]
    have hfirst : Leads c' (c'.grow q [⟨router, k, 0⟩]) :=
      leads_grow (List.forall_mem_singleton.2 (hkeeps.places hrouter))
    have hrest := ih (sound_of_leads hfirst hc') (hplaced.grounded hg') (hplaced.places (hkeeps.places hrouter)) (k + 1)
    have hlay : (Synthesis.layRoutes cfg c router x y k (r :: rest)).1 =
        (Synthesis.layRoutes cfg (c'.grow q [⟨router, k, 0⟩]) router x y (k + 1) rest).1 := by
      rw [Synthesis.layRoutes]
      dsimp only at hgrow ⊢
      rw [hgrow]
    have hgnodes : (c'.grow q [⟨router, k, 0⟩]).nodes = c.nodes ++ [c'.newNode q] := by
      rw [nodes_grow, hnodes]
    have hnew := c'.places_grow q [⟨router, k, 0⟩]
    have hled : ∀ i, (c'.grow q [⟨router, k, 0⟩]).LeavesBy router i (c'.newNode q).name ↔ i = k := by
      intro i
      rw [leavesBy_grow_new hc' hg']
      simp [eq_comm]
    rw [hlay]
    generalize c'.grow q [⟨router, k, 0⟩] = g at hfirst hplaced hrest hgnodes hnew hled ⊢
    obtain ⟨added, hadded, hlength⟩ := hrest.nodes
    rw [hgnodes, List.append_assoc, List.singleton_append] at hadded
    refine ⟨(hkeeps.trans hplaced).trans hrest.keeps, (hleads.trans hfirst).trans hrest.leads,
      ⟨_, hadded, congrArg Nat.succ hlength⟩, ?_⟩
    intro j r' hr'
    cases j with
    | zero =>
      cases hr'
      refine ⟨c'.newNode q, by simp [hadded], horigin, fun i => ?_⟩
      exact (hrest.keeps.leaves router i _ hnew).trans (hled i)
    | succ j =>
      obtain ⟨m, hm, horigin', hled'⟩ := hrest.led j r' hr'
      rw [hgnodes, List.length_append, List.length_singleton, Nat.add_assoc, Nat.add_comm 1] at hm
      refine ⟨m, hm, horigin', fun i => ?_⟩
      rw [hled', Nat.add_assoc, Nat.add_comm 1]

/-! ## Switches -/

/-- the node of route number `k` of a switch is led to by port `k` alone, whose rule has the label of that number -/
structure RouteLed (c : Canvas) (labels : List String) (n : PlacedNode) (k : Nat) (r : Requirement) (m : PlacedNode) :
    Prop where
  origin : m.origin = .step r
  led : ∀ port, c.LeavesBy n.name port m.name ↔ port = k
  sends : ∀ label, n.Sends label k ↔ labels[k]? = some label

/-- a route leaves by the port of a label exactly when it stands at the place of that label -/
theorem RouteLed.sends_iff {labels : List String} {n m : PlacedNode} {k : Nat} {r : Requirement}
    (h : RouteLed c labels n k r m) (label : String) :
    (∃ port, c.LeavesBy n.name port m.name ∧ n.Sends label port) ↔ labels[k]? = some label := by
  rw [← h.sends]
  constructor
  · rintro ⟨port, hport, hlabel⟩
    rwa [(h.led port).1 hport] at hlabel
  · intro hlabel
    exact ⟨k, (h.led k).2 rfl, hlabel⟩

/-- node number `i` was opened as a switch for the requirement `q`, which `rest` follows: the nodes after it begin with
those of its routes -/
structure Router (c : Canvas) (q : Requirement) (rest : List Requirement) (i : Nat) (n : PlacedNode) : Prop where
  origin : n.origin = .step q
  routes : ∀ k r, (Synthesis.routesOf (Synthesis.switchLabels q.text) rest)[k]? = some r →
    ∃ m, c.nodes[i + 1 + k]? = some m ∧ RouteLed c (Synthesis.switchLabels q.text) n k r m

theorem Router.keeps {q : Requirement} {rest : List Requirement} {i : Nat} {n : PlacedNode} (h : Router c q rest i n)
    (hkeeps : Keeps c d) : Router d q rest i n where
  origin := h.origin
  routes k r hr := by
    obtain ⟨m, hm, horigin, hled, hsends⟩ := h.routes k r hr
    obtain ⟨added, hadded⟩ := hkeeps.nodes
    have hm' : d.nodes[i + 1 + k]? = some m := by
      rw [← hadded, List.getElem?_append_left (List.getElem?_eq_some_iff.1 hm).1, hm]
    refine ⟨m, hm', horigin, fun port => ?_, hsends⟩
    exact (hkeeps.leaves n.name port m.name ⟨m, List.mem_of_getElem? hm, rfl⟩).trans (hled port)

/-- a switch that has been opened stands on the canvas with its routes behind it -/
structure SwitchOpened (c : Canvas) (q : Requirement) (rest : List Requirement) (d : Canvas) : Prop where
  keeps : Keeps c d
  sound : Sound d
  router : ∃ n added, d.nodes = c.nodes ++ n :: added ∧ n.branch = c.branch ∧
    added.length = (Synthesis.routesOf (Synthesis.switchLabels q.text) rest).length ∧
    Router d q rest c.nodes.length n

theorem shortType_switch : Catalog.shortType (Catalog.fullTag "switch") = "switch" := by decide +kernel

/-- a label that the switch has a rule for is one of those inferred, at the same place -/
theorem getElem?_usedLabels {inferred : List String} {routes : List Requirement} {k : Nat} (hk : k < routes.length) :
    (if routes.isEmpty then inferred else inferred.take routes.length)[k]? = inferred[k]? := by
  have hne : routes.isEmpty = false := by
    rw [List.isEmpty_eq_false_iff]
    rintro rfl
    exact Nat.not_lt_zero k hk
  rw [hne, if_neg Bool.false_ne_true, List.getElem?_take_of_lt hk]

theorem openSwitch_opened (cfg : BuildConfig) (hc : Sound c) (hg : c.Grounded) {at' : Cursor}
    (hat : c.Places at'.current) (y : Int) (q : Requirement) (rest : List Requirement) :
    SwitchOpened c q rest (Synthesis.openSwitch cfg c at' y q (Synthesis.switchLabels q.text)
      (Synthesis.routesOf (Synthesis.switchLabels q.text) rest)).canvas := by
  unfold Synthesis.openSwitch
  dsimp only
  generalize hroutes : Synthesis.routesOf (Synthesis.switchLabels q.text) rest = routes
  generalize hlabels : (if routes.isEmpty then Synthesis.switchLabels q.text
    else (Synthesis.switchLabels q.text).take routes.length) = labels
  generalize hreq : NodeRequest.mk (Catalog.fullTag "switch") q.name at'.x y (Synthesis.switchRules labels) 1
    (.step q) = req
  rw [connect_add, add_name]
  have hgrown := keeps_grow hc req [⟨at'.current, 0, 0⟩]
  have hgrownLeads : Leads c (c.grow req [⟨at'.current, 0, 0⟩]) := leads_grow (List.forall_mem_singleton.2 hat)
  have hgrownNodes := nodes_grow c req [⟨at'.current, 0, 0⟩]
  have hname := c.places_grow req [⟨at'.current, 0, 0⟩]
  generalize c.grow req [⟨at'.current, 0, 0⟩] = grown at hgrown hgrownLeads hgrownNodes hname ⊢
  have hopened := (hgrown.trans (keeps_openPorts grown (c.newNode req).name labels.length)).trans
    (keeps_note _ "switch" [("node", .text (c.newNode req).name), ("labels", .list (labels.map Value.text)),
      ("routes", .int routes.length)])
  have hopenedLeads := (hgrownLeads.tail (.opened grown _ labels.length hname)).tail (.noted _ "switch"
    [("node", .text (c.newNode req).name), ("labels", .list (labels.map Value.text)), ("routes", .int routes.length)])
  generalize hd : (grown.openPorts (c.newNode req).name labels.length).note "switch" _ = opened at hopened hopenedLeads ⊢
  have hopenedNodes : opened.nodes = c.nodes ++ [c.newNode req] := hd ▸ hgrownNodes
  have hplaces : opened.Places (c.newNode req).name := hd ▸ hname
  have hlaid := layRoutes_laid cfg (sound_of_leads hopenedLeads hc) (hopened.grounded hg) hplaces
    (at'.x + cfg.spacingX) y 0 routes
  obtain ⟨added, hadded, hlength⟩ := hlaid.nodes
  rw [hopenedNodes, List.append_assoc, List.singleton_append] at hadded
  refine ⟨hopened.trans hlaid.keeps, sound_of_leads (hopenedLeads.trans hlaid.leads) hc, c.newNode req, added, hadded,
    rfl, hroutes ▸ hlength, hreq ▸ rfl, fun k r hr => ?_⟩
  rw [hroutes] at hr
  obtain ⟨m, hm, horigin, hled⟩ := hlaid.led k r hr
  rw [hopenedNodes, List.length_append, List.length_singleton] at hm
  refine ⟨m, hm, horigin, fun port => by rw [hled, Nat.zero_add], fun label => ?_⟩
  have hparameters : (c.newNode req).parameters =
      parametersFor "switch" (c.newNode req).name (Synthesis.switchRules labels) := by
    rw [parameters_newNode, ← hreq, shortType_switch]
  have hk : k < routes.length := (List.getElem?_eq_some_iff.1 hr).1
  rw [PlacedNode.sends_iff_of_labels hparameters, ← hlabels, getElem?_usedLabels hk]

/-! ## Layouts -/

/-- every switch that declares rules was opened for a requirement of its branch -/
structure Routed (p : Plan) (c : Canvas) : Prop where
  grounded : c.Grounded
  routers : ∀ i n, c.nodes[i]? = some n → n.Routes → ∃ q rest, q.isSwitch = true ∧
    requirements (c.nodes.take i) n.branch ++ q :: rest = p.asked n.branch ∧ Router c q rest i n

theorem routed_empty (p : Plan) (sources : Identifiers) : Routed p (.empty sources) where
  grounded := grounded_empty sources
  routers i n hn := by simp [empty] at hn

/-- a canvas has more nodes, none of which declares rules as a switch -/
def AddsPlain (c d : Canvas) : Prop := ∃ added, d.nodes = c.nodes ++ added ∧ ∀ n ∈ added, ¬ n.Routes

theorem AddsPlain.trans (h : AddsPlain c d) (h' : AddsPlain d e) : AddsPlain c e := by
  obtain ⟨added, hadded, hplain⟩ := h
  obtain ⟨added', hadded', hplain'⟩ := h'
  exact ⟨added ++ added', by rw [hadded', hadded, List.append_assoc], List.forall_mem_append.2 ⟨hplain, hplain'⟩⟩

theorem addsPlain_of_same (h : d.nodes = c.nodes) : AddsPlain c d := ⟨[], by simp [h], by simp⟩

theorem addsPlain_grow {r : NodeRequest} (hr : r.Plain) (feeds : List Feed) : AddsPlain c (c.grow r feeds) := by
  refine ⟨[c.newNode r], nodes_grow c r feeds, List.forall_mem_singleton.2 ?_⟩
  rintro ⟨hswitch, hrules⟩
  have hshort : Catalog.shortType r.type = "switch" := (c.newNode r).isSwitch_toNode.1 hswitch
  have hparameters := parameters_newNode c r
  rw [hr hshort, hshort] at hparameters
  have hnone := (c.newNode r).length_rules
  rw [hparameters, declaredRules_default] at hnone
  exact hrules (List.length_eq_zero_iff.1 hnone)

/-- what is kept of the switches leaves only new ones to be looked at -/
theorem Routed.keeps (h : Routed p c) (hkeeps : Keeps c d)
    (hnew : ∀ i n, c.nodes.length ≤ i → d.nodes[i]? = some n → n.Routes → ∃ q rest, q.isSwitch = true ∧
      requirements (d.nodes.take i) n.branch ++ q :: rest = p.asked n.branch ∧ Router d q rest i n) : Routed p d where
  grounded := hkeeps.grounded h.grounded
  routers i n hn hroutes := by
    rcases Nat.lt_or_ge i c.nodes.length with hi | hi
    · obtain ⟨added, hadded⟩ := hkeeps.nodes
      rw [← hadded] at hn ⊢
      rw [List.getElem?_append_left hi] at hn
      obtain ⟨q, rest, hq, hasked, hrouter⟩ := h.routers i n hn hroutes
      refine ⟨q, rest, hq, ?_, hrouter.keeps hkeeps⟩
      rw [List.take_append_of_le_length hi.le, hasked]
    · exact hnew i n hi hn hroutes

theorem Routed.addsPlain (h : Routed p c) (hkeeps : Keeps c d) (hplain : AddsPlain c d) : Routed p d := by
  obtain ⟨added, hadded, hplain⟩ := hplain
  refine h.keeps hkeeps fun i n hi hn hroutes => ?_
  rw [hadded, List.getElem?_append_right hi] at hn
  exact absurd hroutes (hplain n (List.mem_of_getElem? hn))

/-- what a layout does for the steps of a branch -/
theorem keeps_of_act (hc : Sound c) (hact : Act cfg c d) : Keeps c d ∧ AddsPlain c d := by
  cases hact with
  | noted rule detail => exact ⟨keeps_note c rule detail, addsPlain_of_same rfl⟩
  | placed r feeds hr hplain hne hfeeds => exact ⟨keeps_grow hc r feeds, addsPlain_grow hplain feeds⟩

theorem addsPlain_of_acts (hc : Sound c) (hacts : Relation.ReflTransGen (Act cfg) c d) : AddsPlain c d := by
  have hrun : Sound d ∧ AddsPlain c d := keep_of_acts (I := fun e => Sound e ∧ AddsPlain c e)
    (fun hact h => ⟨sound_of_leads (Synthesis.leads_of_act hact) h.1, h.2.trans (keeps_of_act h.1 hact).2⟩) hacts
    ⟨hc, addsPlain_of_same rfl⟩
  exact hrun.2

theorem keeps_turned (c : Canvas) (branch : Option Nat) (y : Int) : Keeps c { c with branch := branch, lowestY := y } :=
  keeps_of_same rfl fun _ _ _ => Iff.rfl

/-- a switch that is opened has its routes behind it, and what else grows is plain -/
theorem Routed.growth (h : Routed p c) (hc : Sound c) (hgrowth : Growth cfg p c d) : Routed p d := by
  cases hgrowth with
  | acted hact => exact h.addsPlain (keeps_of_act hc hact).1 (keeps_of_act hc hact).2
  | begun k y r hnew horigin htype hplain =>
    have hturned := h.addsPlain (keeps_turned c (some k) y) (addsPlain_of_same rfl)
    rw [← grow_nil]
    exact hturned.addsPlain (keeps_grow (hc.step (.turned c (some k) y)) r []) (addsPlain_grow hplain [])
  | routed q rest labels r feeds hq hasked hr horigin htype hrules hlabels hne hfeeds hrouter hroutes hcount hfilled at'
      y hat hopened =>
    obtain ⟨hkeeps, hsound, n, added, hadded, hbranch, hlength, hn⟩ :=
      hopened ▸ openSwitch_opened cfg hc h.grounded hat.places y q rest
    -- the acts after the opening place the routes, which declare no rules
    have hplaces : (c.grow r feeds).Places (c.newNode r).name := c.places_grow r feeds
    have hgrown : Sound (c.grow r feeds) := sound_of_leads (leads_grow fun f hf => (hfeeds f hf).1.places) hc
    subst hrouter
    have hnodes : (c.openRouter r feeds labels.length).nodes = c.nodes ++ [c.newNode r] := nodes_grow c r feeds
    have hopen : Sound (c.openRouter r feeds labels.length) := hgrown.step (.opened _ _ labels.length hplaces)
    obtain ⟨routes, hadded', hplain⟩ := addsPlain_of_acts hopen hroutes
    rw [hnodes, List.append_assoc, List.singleton_append] at hadded'
    obtain ⟨rfl, rfl⟩ := List.cons.inj (List.append_cancel_left (hadded.symm.trans hadded'))
    refine h.keeps hkeeps fun i m hi hm hroutes => ?_
    rw [hadded] at hm ⊢
    rcases Nat.eq_or_lt_of_le hi with rfl | hi
    · have hm : c.newNode r = m := by simpa using hm
      subst hm
      refine ⟨q, rest, hq, ?_, hn⟩
      rw [List.take_left, hbranch]
      exact hasked
    · rw [List.getElem?_append_right hi.le, List.getElem?_cons, if_neg (by omega)] at hm
      exact absurd hroutes (hplain m (List.mem_of_getElem? hm))
  | handled r r' horigin horigin' htype htype' hplain hplain' hx =>
    have hturned := h.addsPlain (keeps_turned c none c.lowestY) (addsPlain_of_same rfl)
    have hturnedSound := hc.step (.turned c none c.lowestY)
    have hfirst := hturned.addsPlain (keeps_grow hturnedSound r []) (addsPlain_grow hplain [])
    rw [grow_nil] at hfirst
    exact hfirst.addsPlain (keeps_grow (hturnedSound.step (.added _ r)) r' _) (addsPlain_grow hplain' _)

/-- the ends of routes joined in a node -/
theorem exists_grow_merge (c : Canvas) (req : Option Requirement) (wanted : String) (x y : Int) (mode : String)
    (typeVersion : Nat) (ends : List String) : ∃ r,
      (c.addMerge req wanted x y mode typeVersion).2.connectEnds (c.addMerge req wanted x y mode typeVersion).1 0 ends =
        c.grow r (mergeFeeds 0 ends) := by
  obtain ⟨r, hr⟩ : ∃ r, c.addMerge req wanted x y mode typeVersion = c.add r := by
    cases req <;> exact ⟨_, rfl⟩
  refine ⟨r, ?_⟩
  rw [hr, connectEnds_eq_feed, feed_add]

end Canvas

namespace Synthesis

open Canvas

variable {cfg : BuildConfig} {c : Canvas}

theorem laySwitchMerge_keeps (cfg : BuildConfig) (hc : Sound c) (router : String) (ends : List String) (x y : Int)
    (req : Option Requirement) : Keeps c (laySwitchMerge cfg c router ends x y req).1 := by
  unfold laySwitchMerge
  dsimp only
  obtain ⟨r, hgrow⟩ := exists_grow_merge c req ("Merge " ++ router ++ " Results") x y "chooseBranch" 2 ends
  rw [hgrow]
  exact (keeps_grow hc r _).trans (keeps_note _ _ _)

/-- what follows the routes of a switch leaves them alone -/
theorem closeSwitch_keeps (cfg : BuildConfig) (hc : Sound c) (pending : Bool) (router : String) (routeX y : Int)
    (ends : List String) (after : List Requirement) : Keeps c (closeSwitch cfg pending c router routeX y ends after).1 := by
  have hmerged := laySwitchMerge_keeps cfg hc router ends (routeX + cfg.spacingX) y
  unfold closeSwitch
  dsimp only
  split
  · exact Keeps.refl c
  · exact Keeps.refl c
  · split
    · split <;> dsimp only <;> exact hmerged _
    · split
      · dsimp only
        exact hmerged _
      · exact Keeps.refl c

/-- a switch that a handler lays out has its routes behind it -/
theorem laySwitch_router (hc : Sound c) (hg : c.Grounded) {at' : Cursor} (hat : c.Places at'.current) (pending : Bool)
    (y : Int) (q : Requirement) (rest : List Requirement) :
    ∃ n, (laySwitch cfg pending c at' y q rest).1.nodes[c.nodes.length]? = some n ∧
      Router (laySwitch cfg pending c at' y q rest).1 q rest c.nodes.length n := by
  obtain ⟨-, hsound, n, added, hadded, -, -, hn⟩ := openSwitch_opened cfg hc hg hat y q rest
  unfold laySwitch
  dsimp only
  generalize openSwitch cfg c at' y q _ _ = opened at hsound hadded hn ⊢
  have hkeeps := closeSwitch_keeps cfg hsound pending opened.router (at'.x + cfg.spacingX) y opened.ends
    (rest.drop (routesOf (switchLabels q.text) rest).length)
  obtain ⟨more, hmore⟩ := hkeeps.nodes
  refine ⟨n, ?_, hn.keeps hkeeps⟩
  rw [← hmore, hadded]
  simp

theorem routed_lay (cfg : BuildConfig) (sources : Identifiers) (p : Plan) : Routed p (lay cfg sources p) :=
  lay_induction (routed_empty p sources) fun hleads hgrowth h =>
    h.growth (sound_of_leads hleads (sound_empty sources)) hgrowth

/-- **Routes leave a switch in the order in which they are listed**, wherever it is laid out, and in the layout that the
document of a plan shows: route number `k` leaves by port `k` alone, and the rule of that port has label number `k`. So a
route that names a channel leaves by the port of its channel exactly when it is listed at the place of that label. -/
theorem build_routes (cfg : BuildConfig) (p : Plan) :
    (∀ c at', Sound c → c.Grounded → c.Places at'.current → ∀ pending y q rest, q.isSwitch = true →
      ∃ n, (laySwitch cfg pending c at' y q rest).1.nodes[c.nodes.length]? = some n ∧
        Router (laySwitch cfg pending c at' y q rest).1 q rest c.nodes.length n) ∧
      (∀ sources i n, (lay cfg sources p).nodes[i]? = some n → n.Routes → ∃ q rest, q.isSwitch = true ∧
        requirements ((lay cfg sources p).nodes.take i) n.branch ++ q :: rest = p.asked n.branch ∧
          Router (lay cfg sources p) q rest i n ∧
            ∀ k r channel, (routesOf (switchLabels q.text) rest)[k]? = some r → r.channel = some channel →
              ∃ m, (lay cfg sources p).nodes[i + 1 + k]? = some m ∧ m.origin = .step r ∧
                ((∃ port, (lay cfg sources p).LeavesBy n.name port m.name ∧ n.Sends channel port) ↔
                  (switchLabels q.text)[k]? = some channel)) ∧
        ∀ sources built, build cfg sources p = .ok built → ∃ sources', Shows built.document (lay cfg sources' p) := by
  refine ⟨fun c at' hc hg hat pending y q rest _ => laySwitch_router hc hg hat pending y q rest, ?_,
    fun sources built h => build_shows h⟩
  intro sources i n hn hroutes
  obtain ⟨q, rest, hq, hasked, hrouter⟩ := (routed_lay cfg sources p).routers i n hn hroutes
  refine ⟨q, rest, hq, hasked, hrouter, fun k r channel hr _ => ?_⟩
  obtain ⟨m, hm, hled⟩ := hrouter.routes k r hr
  exact ⟨m, hm, hled.origin, hled.sends_iff channel⟩

/-! ## Routes listed the other way round -/

def paypalStep : Requirement := plainStep "Charge PayPal"

def paymentStep : Requirement := { plainStep "Route payment" with isSwitch := true }

/-- a switch whose routes are not listed in the order of the labels that are inferred from its name -/
def swappedPlan : Plan where
  workflowName := "Checkout"
  branches := [⟨1, "Checkout", "manual", [paymentStep, paypalStep, plainStep "Charge Stripe"]⟩]
  complexity := none
  concerns := []

/-- the node that was placed for the switch -/
theorem exists_router_swappedPlan : ∃ n, (lay .standard ordersSources swappedPlan).nodes[1]? = some n ∧ n.Routes ∧
    n.branch = some 0 ∧ requirements ((lay .standard ordersSources swappedPlan).nodes.take 1) (some 0) = [] := by
  obtain ⟨n, hn, hcheck⟩ := (Option.any_eq_true _ _).1
    (by decide +kernel : (lay .standard ordersSources swappedPlan).nodes[1]?.any
      (fun n => n.toNode.isSwitch && !n.rules.isEmpty && n.branch == some 0) = true)
  have hnone : (requirements ((lay .standard ordersSources swappedPlan).nodes.take 1) (some 0)).length = 0 := by
    decide +kernel
  simp only [Bool.and_eq_true, Bool.not_eq_true', List.isEmpty_eq_false_iff, beq_iff_eq] at hcheck
  exact ⟨n, hn, hcheck.1, hcheck.2, List.length_eq_zero_iff.1 hnone⟩

theorem switchLabels_paymentStep : switchLabels paymentStep.text = ["stripe", "paypal", "crypto"] := by decide +kernel

theorem channel_paypalStep : paypalStep.channel = some "paypal" := by decide +kernel

/-- the steps that follow the switch are its routes -/
theorem routesOf_paymentStep : routesOf (switchLabels paymentStep.text) [paypalStep, plainStep "Charge Stripe"] =
    [paypalStep, plainStep "Charge Stripe"] := by
  rw [switchLabels_paymentStep]
  rfl

theorem build_routes_swappedPlan :
    (∃ n, (laySwitch .standard false (lay .standard ordersSources swappedPlan) ⟨"Manual Trigger", 0⟩ 0 paymentStep
        [paypalStep]).1.nodes[(lay .standard ordersSources swappedPlan).nodes.length]? = some n ∧
      Router (laySwitch .standard false (lay .standard ordersSources swappedPlan) ⟨"Manual Trigger", 0⟩ 0 paymentStep
        [paypalStep]).1 paymentStep [paypalStep] (lay .standard ordersSources swappedPlan).nodes.length n) ∧
      (∃ n q rest, (lay .standard ordersSources swappedPlan).nodes[1]? = some n ∧ n.Routes ∧
        Router (lay .standard ordersSources swappedPlan) q rest 1 n) ∧
        ∃ built, build .standard ordersSources swappedPlan = .ok built ∧
          ∃ sources', Shows built.document (lay .standard sources' swappedPlan) := by
  obtain ⟨hhandler, hlayout, hdocument⟩ := build_routes .standard swappedPlan
  obtain ⟨n, hn, hroutes, -, -⟩ := exists_router_swappedPlan
  obtain ⟨q, rest, -, -, hrouter, -⟩ := hlayout ordersSources 1 n hn hroutes
  obtain ⟨built, hbuilt⟩ : Succeeds (build .standard ordersSources swappedPlan) := by decide +kernel
  have hplaces : (lay .standard ordersSources swappedPlan).Places "Manual Trigger" := by
    have hnames : "Manual Trigger" ∈ (lay .standard ordersSources swappedPlan).nodes.map (·.name) := by decide +kernel
    obtain ⟨m, hm, hname⟩ := List.mem_map.1 hnames
    exact ⟨m, hm, hname⟩
  exact ⟨hhandler _ ⟨"Manual Trigger", 0⟩ (sound_lay _ _ _) (routed_lay _ _ _).grounded hplaces false 0 paymentStep
      [paypalStep] rfl,
    ⟨n, q, rest, hn, hroutes, hrouter⟩, built, hbuilt, hdocument ordersSources built hbuilt⟩

/-- the first route names the second label, and no rule for its channel has the port that leads to it -/
theorem build_swaps_routes : ∃ n m, (lay .standard ordersSources swappedPlan).nodes[1]? = some n ∧
    (lay .standard ordersSources swappedPlan).nodes[2]? = some m ∧ n.origin = .step paymentStep ∧
      m.origin = .step paypalStep ∧ paypalStep.channel = some "paypal" ∧ "paypal" ∈ switchLabels paymentStep.text ∧
        ¬ ∃ port, (lay .standard ordersSources swappedPlan).LeavesBy n.name port m.name ∧ n.Sends "paypal" port := by
  obtain ⟨n, hn, hroutes, hbranch, hfirst⟩ := exists_router_swappedPlan
  obtain ⟨q, rest, -, hasked, hrouter⟩ := (routed_lay .standard ordersSources swappedPlan).routers 1 n hn hroutes
  rw [hbranch, hfirst, List.nil_append] at hasked
  obtain ⟨rfl, rfl⟩ : q = paymentStep ∧ rest = [paypalStep, plainStep "Charge Stripe"] := List.cons.inj hasked
  have hroute : (routesOf (switchLabels paymentStep.text) [paypalStep, plainStep "Charge Stripe"])[0]? =
      some paypalStep := by
    rw [routesOf_paymentStep]
    rfl
  obtain ⟨m, hm, hled⟩ := hrouter.routes 0 paypalStep hroute
  refine ⟨n, m, hn, hm, hrouter.origin, hled.origin, channel_paypalStep, ?_, ?_⟩
  · rw [switchLabels_paymentStep]
    decide
  · rw [hled.sends_iff, switchLabels_paymentStep]
    decide

end Synthesis

end WorkflowGraph
