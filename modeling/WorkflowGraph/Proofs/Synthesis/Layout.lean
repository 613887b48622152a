import WorkflowGraph.Proofs.Synthesis.Motifs
import WorkflowGraph.Proofs.Synthesis.Steps
/-
A layout as the growth of a canvas. Inside a branch nodes are only placed with edges from nodes to their left, a switch
is opened together with its routes, and branches begin with a trigger. What each of these keeps, the layout of every
plan has.

- `Act`, `Growth`: what a layout does to a canvas, and what it does it for.
- `Ends`: what a part of a layout leaves: a canvas that has grown by the nodes of the requirements it took, and a node
  from which the branch goes on.
- `lay_grows`: the layout of a plan grows from the empty canvas, and what stands in each of its branches.
- `lay_induction`: what growth keeps, the layout of a plan has.
-/
namespace WorkflowGraph

/-- the requirement that a node was placed for -/
def Origin.requirement? : Origin → Option Requirement
  | .step r => some r
  | _ => none

/-- a node between the trigger of a branch and its answer -/
def Origin.Inside : Origin → Prop
  | .step _ => True
  | .join => True
  | _ => False

/-- inside a branch, the node of a requirement asks for its name, and other nodes are of the types made up for them -/
def Origin.Admits (wanted type : String) : Origin → Prop
  | .step q => wanted = q.name
  | .join => type = Catalog.fullTag "merge"
  | .response => wanted = "Respond to Webhook" ∧ type = Synthesis.responseType
  | _ => False

/-- the requirements of a branch, given by its position in the plan -/
def Plan.asked (p : Plan) (branch : Option Nat) : List Requirement :=
  ((branch.bind fun k => p.branches[k]?).map (·.requirements)).getD []

/-- a request for a node inside a branch; it asks for no trigger, as long as the general type is none -/
structure NodeRequest.Inner (cfg : BuildConfig) (r : NodeRequest) : Prop where
  type : Catalog.isTriggerType cfg.defaultNodeType = false → Catalog.isTriggerType r.type = false
  origin : r.origin.Admits r.wanted r.type

/-- a request that gives a switch no rules -/
def NodeRequest.Plain (r : NodeRequest) : Prop := Catalog.shortType r.type = "switch" → r.parameters = []

/-- the types of the nodes by which a layout starts something -/
theorem isTriggerType_of_start : ∀ short ∈ ["webhook", "scheduleTrigger", "errorTrigger", "manualTrigger"],
    Catalog.isTriggerType (Catalog.fullTag short) = true ∧ Catalog.shortType (Catalog.fullTag short) ≠ "switch" := by
  decide +kernel

/-- the types of the other nodes that a layout makes up -/
theorem isTriggerType_of_madeUp : ∀ short ∈ ["merge", "respondToWebhook", "emailSend"],
    Catalog.isTriggerType (Catalog.fullTag short) = false ∧ Catalog.shortType (Catalog.fullTag short) ≠ "switch" := by
  decide +kernel

namespace Canvas

/-- the requirements that nodes of a branch were placed for -/
def requirements (nodes : List PlacedNode) (branch : Option Nat) : List Requirement :=
  (nodes.filter fun n => n.branch = branch).filterMap fun n => n.origin.requirement?

theorem requirements_append (nodes nodes' : List PlacedNode) (branch : Option Nat) :
    requirements (nodes ++ nodes') branch = requirements nodes branch ++ requirements nodes' branch := by
  rw [requirements, List.filter_append, List.filterMap_append]
  rfl

theorem requirements_of_branch {nodes : List PlacedNode} {branch : Option Nat} (h : ∀ n ∈ nodes, n.branch = branch) :
    requirements nodes branch = nodes.filterMap fun n => n.origin.requirement? := by
  rw [requirements, List.filter_eq_self.2 fun n hn => decide_eq_true (h n hn)]

theorem filter_of_others {nodes : List PlacedNode} {branch : Option Nat} (h : ∀ n ∈ nodes, n.branch ≠ branch) :
    nodes.filter (fun n => n.branch = branch) = [] :=
  List.filter_eq_nil_iff.2 fun n hn => by simpa using h n hn

theorem requirements_of_others {nodes : List PlacedNode} {branch : Option Nat} (h : ∀ n ∈ nodes, n.branch ≠ branch) :
    requirements nodes branch = [] := by
  rw [requirements, filter_of_others h]
  rfl

/-- a node of the branch that is laid out stands left of a column, provided that columns go to the right -/
def LeftOf (cfg : BuildConfig) (c : Canvas) (name : String) (x : Int) : Prop :=
  ∃ k, c.branch = some k ∧ ∃ n ∈ c.nodes, n.name = name ∧ n.branch = some k ∧ (0 < cfg.spacingX → n.x < x)

/-- the main ports of a node -/
def portsOf (c : Canvas) (name : String) : List Port := c.connections.ports (.text name) mainType

/-- an edge may lead to a column from a node left of it, by the first port or by one that has been opened -/
def MayFeed (cfg : BuildConfig) (c : Canvas) (x : Int) (f : Feed) : Prop :=
  c.LeftOf cfg f.source x ∧ (f.port = 0 ∨ f.port < (c.portsOf f.source).length)

/-! ## Growth -/

variable {cfg : BuildConfig} {p : Plan}

/-- what a layout does for the steps of a branch -/
inductive Act (cfg : BuildConfig) : Canvas → Canvas → Prop
  /-- a decision is noted -/
  | noted (c : Canvas) (rule : String) (detail : List (String × Value)) : Act cfg c (c.note rule detail)
  /-- a node is placed with edges from nodes to its left -/
  | placed (c : Canvas) (r : NodeRequest) (feeds : List Feed) (hr : r.Inner cfg) (hplain : r.Plain) (hne : feeds ≠ [])
      (hfeeds : ∀ f ∈ feeds, c.MayFeed cfg r.x f) : Act cfg c (c.grow r feeds)

/-- what an act keeps, any number of acts keep -/
theorem keep_of_acts {I : Canvas → Prop} (hact : ∀ {c d}, Act cfg c d → I c → I d) {c d : Canvas}
    (h : Relation.ReflTransGen (Act cfg) c d) (hc : I c) : I d := by
  induction h with
  | refl => exact hc
  | tail _ hstep ih => exact hact hstep ih

/-- a switch placed with edges from nodes to its left and with a port for each label -/
def openRouter (c : Canvas) (r : NodeRequest) (feeds : List Feed) (count : Nat) : Canvas :=
  (c.grow r feeds).openPorts (c.newNode r).name count

/-- what a layout of a plan does to a canvas -/
inductive Growth (cfg : BuildConfig) (p : Plan) : Canvas → Canvas → Prop
  /-- a branch goes on -/
  | acted {c d : Canvas} (h : Act cfg c d) : Growth cfg p c d
  /-- a branch begins with its trigger -/
  | begun (c : Canvas) (k : Nat) (y : Int) (r : NodeRequest) (hnew : ∀ n ∈ c.nodes, n.branch ≠ some k)
      (horigin : r.origin = .trigger) (htype : Catalog.isTriggerType r.type = true) (hplain : r.Plain) :
      Growth cfg p c ({ c with branch := some k, lowestY := y }.add r).2
  /-- a switch is opened for a requirement and gets its routes, which are taken of the requirements after it -/
  | routed {c router d : Canvas} (q : Requirement) (rest : List Requirement) (labels : List String) (r : NodeRequest)
      (feeds : List Feed) (hq : q.isSwitch = true)
      (hasked : requirements c.nodes c.branch ++ q :: rest = p.asked c.branch) (hr : r.Inner cfg)
      (horigin : r.origin = .step q) (htype : r.type = Catalog.fullTag "switch")
      (hrules : r.parameters = Synthesis.switchRules labels) (hlabels : labels ≠ []) (hne : feeds ≠ [])
      (hfeeds : ∀ f ∈ feeds, c.MayFeed cfg r.x f)
      (hrouter : router = c.openRouter r feeds labels.length) (hroutes : Relation.ReflTransGen (Act cfg) router d)
      (hcount : (d.portsOf (c.newNode r).name).length = (router.portsOf (c.newNode r).name).length)
      (hfilled : Synthesis.routesOf (Synthesis.switchLabels q.text) rest = [] ∨
        ∀ i < labels.length, d.connections.portAt (.text (c.newNode r).name) mainType i ≠ [])
      (at' : Cursor) (y : Int) (hat : c.LeftOf cfg at'.current at'.x)
      (hopened : d = (Synthesis.openSwitch cfg c at' y q (Synthesis.switchLabels q.text)
        (Synthesis.routesOf (Synthesis.switchLabels q.text) rest)).canvas) : Growth cfg p c d
  /-- errors are handled beside the branches, by a trigger and a node right of it -/
  | handled (c : Canvas) (r r' : NodeRequest) (horigin : r.origin = .errorHandling)
      (horigin' : r'.origin = .errorHandling) (htype : Catalog.isTriggerType r.type = true)
      (htype' : Catalog.isTriggerType r'.type = false) (hplain : r.Plain) (hplain' : r'.Plain)
      (hx : 0 < cfg.spacingX → r.x < r'.x) :
      Growth cfg p c (({ c with branch := none }.add r).2.grow r' [⟨({ c with branch := none }.newNode r).name, 0, 0⟩])

/-! ## Nodes to the left -/

theorem LeftOf.places {c : Canvas} {name : String} {x : Int} (h : c.LeftOf cfg name x) : c.Places name := by
  obtain ⟨k, -, n, hn, hname, -⟩ := h
  exact ⟨n, hn, hname⟩

/-- what stands left of a column stands left of the columns after it, on the canvas and on what grows from it -/
theorem LeftOf.mono {c d : Canvas} {name : String} {x x' : Int} (h : c.LeftOf cfg name x) (hnodes : c.nodes ⊆ d.nodes)
    (hbranch : d.branch = c.branch) (hx : 0 < cfg.spacingX → x ≤ x') : d.LeftOf cfg name x' := by
  obtain ⟨k, hk, n, hn, hname, hnk, hleft⟩ := h
  exact ⟨k, hbranch.trans hk, n, hnodes hn, hname, hnk, fun hspacing => (hleft hspacing).trans_le (hx hspacing)⟩

theorem LeftOf.note {c : Canvas} {name : String} {x : Int} (h : c.LeftOf cfg name x) (rule : String)
    (detail : List (String × Value)) : (c.note rule detail).LeftOf cfg name x := h

theorem LeftOf.openPorts {c : Canvas} {name : String} {x : Int} (h : c.LeftOf cfg name x) (source : String)
    (count : Nat) : (c.openPorts source count).LeftOf cfg name x := h

/-- one column on -/
theorem LeftOf.right {c : Canvas} {name : String} {x : Int} (h : c.LeftOf cfg name x) :
    c.LeftOf cfg name (x + cfg.spacingX) :=
  h.mono (List.Subset.refl _) rfl fun hspacing => by omega

/-! ## What a part of a layout leaves -/

/-- a canvas has more nodes of its branch, which stand for given requirements or join what stands for them -/
structure Extends (c : Canvas) (taken : List Requirement) (d : Canvas) : Prop where
  branch : d.branch = c.branch
  nodes : ∃ added, d.nodes = c.nodes ++ added ∧ (∀ n ∈ added, n.branch = c.branch) ∧
    (∀ n ∈ added, n.origin.Inside) ∧ added.filterMap (fun n => n.origin.requirement?) = taken

/-- and it has grown by what a layout does -/
structure Goes (R : Canvas → Canvas → Prop) (c : Canvas) (taken : List Requirement) (d : Canvas) : Prop extends
    Extends c taken d where
  runs : Relation.ReflTransGen R c d

/-- and the branch goes on from a node left of the next column -/
structure Ends (cfg : BuildConfig) (R : Canvas → Canvas → Prop) (c : Canvas) (taken : List Requirement) (d : Canvas)
    (at' : Cursor) : Prop extends Goes R c taken d where
  stands : d.LeftOf cfg at'.current at'.x

section

variable {R : Canvas → Canvas → Prop} {c d e : Canvas} {taken taken' : List Requirement}

theorem Extends.trans (h : Extends c taken d) (h' : Extends d taken' e) : Extends c (taken ++ taken') e := by
  obtain ⟨added, hadded, hbranch, hinside, htaken⟩ := h.nodes
  obtain ⟨added', hadded', hbranch', hinside', htaken'⟩ := h'.nodes
  refine ⟨h'.branch.trans h.branch, added ++ added', ?_, ?_, List.forall_mem_append.2 ⟨hinside, hinside'⟩, ?_⟩
  · rw [hadded', hadded, List.append_assoc]
  · exact List.forall_mem_append.2 ⟨hbranch, fun n hn => (hbranch' n hn).trans h.branch⟩
  · rw [List.filterMap_append, htaken, htaken']

theorem Extends.note (h : Extends c taken d) (rule : String) (detail : List (String × Value)) :
    Extends c taken (d.note rule detail) := ⟨h.branch, h.nodes⟩

theorem Extends.openPorts (h : Extends c taken d) (source : String) (count : Nat) :
    Extends c taken (d.openPorts source count) := ⟨h.branch, h.nodes⟩

theorem Extends.subset (h : Extends c taken d) : c.nodes ⊆ d.nodes := by
  obtain ⟨added, hadded, -⟩ := h.nodes
  rw [hadded]
  exact List.subset_append_left _ _

/-- what stood left of a column still does -/
theorem Extends.leftOf (h : Extends c taken d) {name : String} {x : Int} (hleft : c.LeftOf cfg name x) :
    d.LeftOf cfg name x :=
  hleft.mono h.subset h.branch fun _ => le_refl x

/-- the branch has the requirements that were taken in addition -/
theorem Extends.requirements (h : Extends c taken d) :
    requirements d.nodes d.branch = requirements c.nodes c.branch ++ taken := by
  obtain ⟨added, hadded, hbranch, -, htaken⟩ := h.nodes
  rw [h.branch, hadded, requirements_append, requirements_of_branch hbranch, htaken]

theorem Goes.refl (R : Canvas → Canvas → Prop) (c : Canvas) : Goes R c [] c :=
  ⟨⟨rfl, [], by simp⟩, Relation.ReflTransGen.refl⟩

theorem Goes.trans (h : Goes R c taken d) (h' : Goes R d taken' e) : Goes R c (taken ++ taken') e :=
  ⟨h.toExtends.trans h'.toExtends, Relation.ReflTransGen.trans h.runs h'.runs⟩

theorem Ends.after {at' : Cursor} (h : Goes R c taken d) (h' : Ends cfg R d taken' e at') :
    Ends cfg R c (taken ++ taken') e at' :=
  ⟨h.trans h'.toGoes, h'.stands⟩

theorem Goes.grown (h : Goes (Act cfg) c taken d) : Goes (Growth cfg p) c taken d :=
  ⟨h.toExtends, Relation.ReflTransGen.mono (fun _ _ hact => Growth.acted hact) _ _ h.runs⟩

theorem Ends.grown {at' : Cursor} (h : Ends cfg (Act cfg) c taken d at') : Ends cfg (Growth cfg p) c taken d at' :=
  ⟨h.toGoes.grown, h.stands⟩

end

/-! ## Acts -/

theorem goes_note (cfg : BuildConfig) (c : Canvas) (rule : String) (detail : List (String × Value)) :
    Goes (Act cfg) c [] (c.note rule detail) :=
  ⟨⟨rfl, [], by simp [note]⟩, Relation.ReflTransGen.single (.noted c rule detail)⟩

theorem Ends.note {c d : Canvas} {taken : List Requirement} {at' : Cursor} (h : Ends cfg (Act cfg) c taken d at')
    (rule : String) (detail : List (String × Value)) : Ends cfg (Act cfg) c taken (d.note rule detail) at' := by
  have hnoted := h.toGoes.trans (goes_note cfg d rule detail)
  rw [List.append_nil] at hnoted
  exact ⟨hnoted, h.stands⟩

theorem extends_grow (c : Canvas) {r : NodeRequest} (hinside : r.origin.Inside) (feeds : List Feed) :
    Extends c r.origin.requirement?.toList (c.grow r feeds) := by
  refine ⟨branch_grow c r feeds, [c.newNode r], nodes_grow c r feeds, List.forall_mem_singleton.2 rfl,
    List.forall_mem_singleton.2 hinside, ?_⟩
  show [c.newNode r].filterMap _ = r.origin.requirement?.toList
  cases horigin : r.origin.requirement? <;> simp [newNode, horigin]

/-- a new node stands left of the next column -/
theorem leftOf_grow {c : Canvas} {r : NodeRequest} {feeds : List Feed} (hne : feeds ≠ [])
    (hfeeds : ∀ f ∈ feeds, c.MayFeed cfg r.x f) :
    (c.grow r feeds).LeftOf cfg (c.newNode r).name (r.x + cfg.spacingX) := by
  obtain ⟨f, hf⟩ := List.exists_mem_of_ne_nil feeds hne
  obtain ⟨⟨k, hk, -⟩, -⟩ := hfeeds f hf
  have hmem : c.newNode r ∈ (c.grow r feeds).nodes := by simp
  refine ⟨k, (branch_grow c r feeds).trans hk, c.newNode r, hmem, rfl, hk, fun hspacing => ?_⟩
  show r.x < r.x + cfg.spacingX
  omega

/-- a branch goes on from a node that was placed -/
theorem ends_grow {c : Canvas} {r : NodeRequest} {feeds : List Feed} (hinside : r.origin.Inside) (hr : r.Inner cfg)
    (hplain : r.Plain) (hne : feeds ≠ []) (hfeeds : ∀ f ∈ feeds, c.MayFeed cfg r.x f) :
    Ends cfg (Act cfg) c r.origin.requirement?.toList (c.grow r feeds)
      ⟨(c.newNode r).name, r.x + cfg.spacingX⟩ :=
  ⟨⟨extends_grow c hinside feeds, Relation.ReflTransGen.single (.placed c r feeds hr hplain hne hfeeds)⟩,
    leftOf_grow hne hfeeds⟩

/-- a requirement placed as a node, with one edge to it -/
theorem ends_place {c : Canvas} {x : Int} {f : Feed} (hf : c.MayFeed cfg x f) (r : Requirement) (y : Int) :
    Ends cfg (Act cfg) c [r] ((c.place cfg r x y).2.connect f.source f.port (c.place cfg r x y).1 f.index)
      ⟨(c.place cfg r x y).1, x + cfg.spacingX⟩ := by
  -- the request for a node on a canvas with the same nodes and connections
  have hplaced : ∀ (d : Canvas) (type : String),
      (Catalog.isTriggerType cfg.defaultNodeType = false → Catalog.isTriggerType type = false) → d.MayFeed cfg x f →
      Ends cfg (Act cfg) d [r] (d.grow ⟨type, r.name, x, y, [], 1, .step r⟩ [f])
        ⟨(d.newNode ⟨type, r.name, x, y, [], 1, .step r⟩).name, x + cfg.spacingX⟩ := by
    intro d type htype hd
    have hinner : NodeRequest.Inner cfg ⟨type, r.name, x, y, [], 1, .step r⟩ := ⟨htype, rfl⟩
    have hinside : (Origin.step r).Inside := trivial
    exact ends_grow hinside hinner (fun _ => rfl) (List.cons_ne_nil f []) (List.forall_mem_singleton.2 hd)
  unfold place
  split
  · rw [connect_add, add_name]
    have hnoted := goes_note cfg c "trigger-step-demoted" [("node", r.name), ("type", r.type)]
    exact (hplaced (c.note _ _) cfg.defaultNodeType id ⟨hnoted.leftOf hf.1, hf.2⟩).after hnoted
  · rename_i htype
    rw [connect_add, add_name]
    exact hplaced c r.type (fun _ => Bool.not_eq_true _ ▸ htype) hf

/-- the ends of rows or routes joined in a node, which stands for a requirement or is made up -/
theorem ends_merge {c : Canvas} {ends : List String} {x : Int} (hne : ends ≠ [])
    (h : ∀ e ∈ ends, c.LeftOf cfg e x) (req : Option Requirement) (wanted : String) (y : Int) (mode : String)
    (typeVersion : Nat) :
    Ends cfg (Act cfg) c req.toList
      ((c.addMerge req wanted x y mode typeVersion).2.connectEnds (c.addMerge req wanted x y mode typeVersion).1 0 ends)
      ⟨(c.addMerge req wanted x y mode typeVersion).1, x + cfg.spacingX⟩ := by
  obtain ⟨hmergeType, hmergeShort⟩ := isTriggerType_of_madeUp "merge" (by simp)
  have hfeedsNe : mergeFeeds 0 ends ≠ [] := by
    obtain ⟨e, rest, rfl⟩ := List.exists_cons_of_ne_nil hne
    exact List.cons_ne_nil _ _
  have hfeeds : ∀ f ∈ mergeFeeds 0 ends, c.MayFeed cfg x f := by
    intro f hf
    obtain ⟨hsource, hport⟩ := source_mem_of_mem_mergeFeeds hf
    exact ⟨h f.source hsource, Or.inl hport⟩
  cases req with
  | none =>
    let r : NodeRequest := ⟨Catalog.fullTag "merge", wanted, x, y, [(.text "mode", .text mode)], typeVersion, .join⟩
    have hgrow := ends_grow (r := r) trivial ⟨fun _ => hmergeType, rfl⟩ (fun h => absurd h hmergeShort) hfeedsNe hfeeds
    simp only [addMerge]
    rw [connectEnds_eq_feed, feed_add, add_name]
    exact hgrow
  | some q =>
    let r : NodeRequest := ⟨Catalog.fullTag "merge", q.name, x, y, [(.text "mode", .text mode)], typeVersion, .step q⟩
    have hgrow := ends_grow (r := r) trivial ⟨fun _ => hmergeType, rfl⟩ (fun h => absurd h hmergeShort) hfeedsNe hfeeds
    simp only [addMerge]
    rw [connectEnds_eq_feed, feed_add, add_name]
    exact hgrow

end Canvas

namespace Synthesis

open Canvas

variable {cfg : BuildConfig} {p : Plan}

/-! ## Parallel rows -/

theorem mayFeed_first {c : Canvas} {name : String} {x : Int} (h : c.LeftOf cfg name x) :
    c.MayFeed cfg x ⟨name, 0, 0⟩ := ⟨h, Or.inl rfl⟩

theorem layRow_ends {c : Canvas} {at' : Cursor} (h : c.LeftOf cfg at'.current at'.x) (y : Int)
    (rs : List Requirement) : Ends cfg (Act cfg) c rs (layRow cfg c at' y rs).1 (layRow cfg c at' y rs).2 := by
  induction rs generalizing c at' with
  | nil => exact ⟨Goes.refl _ c, h⟩
  | cons r rest ih =>
    have hplaced := ends_place (mayFeed_first h) r y
    rw [layRow]
    dsimp only
    exact (ih hplaced.stands).after hplaced.toGoes

/-- rows end left of the column that is given -/
theorem layRows_goes {c : Canvas} {at' : Cursor} (h : c.LeftOf cfg at'.current at'.x) (y : Int)
    (rows : List (List Requirement)) :
    Goes (Act cfg) c rows.flatten (layRows cfg c at' y rows).1 ∧
      (layRows cfg c at' y rows).2.1.length = rows.length ∧
      ∀ e ∈ (layRows cfg c at' y rows).2.1,
        (layRows cfg c at' y rows).1.LeftOf cfg e (layRows cfg c at' y rows).2.2 := by
  induction rows generalizing c y with
  | nil => exact ⟨Goes.refl _ c, rfl, by simp [layRows]⟩
  | cons row rows ih =>
    have hrow := layRow_ends h y row
    obtain ⟨hgoes, hlength, hends⟩ := ih (hrow.leftOf h) (y + cfg.siblingSpacing)
    refine ⟨hrow.toGoes.trans hgoes, congrArg Nat.succ hlength, List.forall_mem_cons.2 ⟨?_, fun e he => ?_⟩⟩
    · exact (hgoes.leftOf hrow.stands).mono (List.Subset.refl _) rfl fun _ => le_max_left _ _
    · exact (hends e he).mono (List.Subset.refl _) rfl fun _ => le_max_right _ _

theorem layMergedRows_ends {c : Canvas} {start : Cursor} (h : c.LeftOf cfg start.current start.x) (y : Int)
    (head : Requirement) {scan : RowScan} (hrows : scan.rows ≠ []) :
    Ends cfg (Act cfg) c scan.taken (layMergedRows cfg c start y head scan).1
      (layMergedRows cfg c start y head scan).2 := by
  obtain ⟨hgoes, hlength, hends⟩ := layRows_goes h y scan.rows
  unfold layMergedRows
  generalize layRows cfg c start y scan.rows = out at hgoes hlength hends ⊢
  obtain ⟨d, ends, x⟩ := out
  have hne : ends ≠ [] := by
    rintro rfl
    exact hrows (List.length_eq_zero_iff.1 hlength.symm)
  have hmerge := ends_merge hne hends scan.merge "Merge Results" y "append" 1
  dsimp only
  exact (hmerge.note _ _).after hgoes

/-- a parallel step takes what stands before the requirements that its scan leaves -/
theorem layParallel_ends {c : Canvas} {at' : Cursor} (h : c.LeftOf cfg at'.current at'.x) (y : Int)
    (head : Requirement) (rest : List Requirement) (hrows : (rowsOf head rest).rows ≠ []) :
    ∃ taken, taken ++ (rowsOf head rest).rest = head :: rest ∧
      Ends cfg (Act cfg) c taken (layParallel cfg c at' y head (rowsOf head rest)).1
        (layParallel cfg c at' y head (rowsOf head rest)).2 := by
  refine ⟨_, rowsOf_taken head rest, ?_⟩
  unfold layParallel
  split
  · exact layMergedRows_ends h y head hrows
  · have hplaced := ends_place (mayFeed_first h) head y
    dsimp only
    exact (layMergedRows_ends hplaced.stands y head hrows).after hplaced.toGoes

/-! ## Switches -/

/-- routes leave a router by its ports from number `k` on, and fill them -/
structure Routes (cfg : BuildConfig) (c : Canvas) (router : String) (x : Int) (k : Nat) (rs : List Requirement)
    (d : Canvas) (names : List String) : Prop where
  goes : Goes (Act cfg) c rs d
  length : names.length = rs.length
  ends : ∀ e ∈ names, d.LeftOf cfg e (x + cfg.spacingX)
  count : (d.portsOf router).length = (c.portsOf router).length
  kept : ∀ i, c.connections.portAt (.text router) mainType i ≠ [] → d.connections.portAt (.text router) mainType i ≠ []
  filled : ∀ i, k ≤ i → i < k + rs.length → d.connections.portAt (.text router) mainType i ≠ []

theorem connections_place (cfg : BuildConfig) (c : Canvas) (r : Requirement) (x y : Int) :
    (c.place cfg r x y).2.connections = c.connections := by
  unfold place
  split
  · exact connections_add (c.note _ _) _
  · exact connections_add c _

theorem layRoutes_routes {c : Canvas} {router : String} {x : Int} (h : c.LeftOf cfg router x) (y : Int) (k : Nat)
    (rs : List Requirement) (hports : k + rs.length ≤ (c.portsOf router).length) :
    Routes cfg c router x k rs (layRoutes cfg c router x y k rs).1 (layRoutes cfg c router x y k rs).2 := by
  induction rs generalizing c k with
  | nil =>
    refine ⟨Goes.refl _ c, rfl, by simp [layRoutes], rfl, fun i hi => hi, fun i hki hik => ?_⟩
    simp only [List.length_nil, Nat.add_zero] at hik
    omega
  | cons r rest ih =>
    rw [List.length_cons] at hports
    have hport : k < (c.portsOf router).length := by omega
    have hplaced := ends_place (f := ⟨router, k, 0⟩) ⟨h, Or.inr hport⟩ r (y + k * cfg.siblingSpacing)
    let name := (c.place cfg r x (y + k * cfg.siblingSpacing)).1
    let d := (c.place cfg r x (y + k * cfg.siblingSpacing)).2.connect router k name 0
    show Routes cfg c router x k (r :: rest) (layRoutes cfg d router x y (k + 1) rest).1
      (name :: (layRoutes cfg d router x y (k + 1) rest).2)
    have hconnections : d.connections =
        c.connections.addEdge (.text router) mainType k (.plain name mainType 0) := by
      rw [← connections_place cfg c r x (y + k * cfg.siblingSpacing)]
      rfl
    have hcount : (d.portsOf router).length = (c.portsOf router).length := by
      rw [portsOf, hconnections]
      exact Connections.length_ports_addEdge hport _
    have hportAt : ∀ i, c.connections.portAt (.text router) mainType i ≠ [] ∨ k = i →
        d.connections.portAt (.text router) mainType i ≠ [] := by
      intro i hi
      rw [hconnections, Connections.portAt_addEdge]
      split
      · exact List.ne_nil_of_mem ((Connections.mem_insertEdge _ _ _).2 (Or.inl rfl))
      · rename_i hother
        exact hi.resolve_right fun hk => hother ⟨BEq.refl _, rfl, hk⟩
    have hroutes := ih (hplaced.leftOf h) (k + 1) (by rw [hcount]; omega)
    refine ⟨hplaced.toGoes.trans hroutes.goes, congrArg Nat.succ hroutes.length, ?_, hroutes.count.trans hcount, ?_, ?_⟩
    · exact List.forall_mem_cons.2 ⟨hroutes.goes.leftOf hplaced.stands, hroutes.ends⟩
    · exact fun i hi => hroutes.kept i (hportAt i (Or.inl hi))
    · intro i hki hik
      rw [List.length_cons] at hik
      rcases Nat.eq_or_lt_of_le hki with rfl | hlt
      · exact hroutes.kept k (hportAt k (Or.inr rfl))
      · exact hroutes.filled i hlt (by omega)

theorem laySwitchMerge_ends {c : Canvas} {ends : List String} {x : Int} (hne : ends ≠ [])
    (h : ∀ e ∈ ends, c.LeftOf cfg e x) (router : String) (y : Int) (req : Option Requirement) :
    Ends cfg (Act cfg) c req.toList (laySwitchMerge cfg c router ends x y req).1
      (laySwitchMerge cfg c router ends x y req).2 :=
  (ends_merge hne h req ("Merge " ++ router ++ " Results") y "chooseBranch" 2).note _ _

/-- after its routes a switch takes the merge that comes next, or nothing -/
theorem closeSwitch_ends (pending : Bool) {c : Canvas} {router : String} {routeX : Int} {ends : List String}
    (hrouter : c.LeftOf cfg router routeX) (h : ∀ e ∈ ends, c.LeftOf cfg e (routeX + cfg.spacingX)) (y : Int)
    (after : List Requirement) :
    ∃ taken, taken ++ (closeSwitch cfg pending c router routeX y ends after).2.2 = after ∧
      Ends cfg (Act cfg) c taken (closeSwitch cfg pending c router routeX y ends after).1
        (closeSwitch cfg pending c router routeX y ends after).2.1 := by
  unfold closeSwitch
  dsimp only
  split
  · exact ⟨[], rfl, Goes.refl _ c, hrouter⟩
  · exact ⟨[], rfl, Goes.refl _ c, h _ List.mem_cons_self⟩
  · rename_i hnone _
    have merged := laySwitchMerge_ends hnone h router y
    split
    · rename_i next others
      split
      · dsimp only
        exact ⟨[next], rfl, merged (some next)⟩
      · dsimp only
        exact ⟨[], rfl, merged none⟩
    · split
      · dsimp only
        exact ⟨[], rfl, merged none⟩
      · exact ⟨[], rfl, Goes.refl _ c, hrouter.right⟩

/-- a switch that has been opened, with its routes -/
structure Opens (cfg : BuildConfig) (p : Plan) (c : Canvas) (taken : List Requirement) (routeX : Int) (s : OpenSwitch) :
    Prop where
  goes : Goes (Growth cfg p) c taken s.canvas
  router : s.canvas.LeftOf cfg s.router routeX
  ends : ∀ e ∈ s.ends, s.canvas.LeftOf cfg e (routeX + cfg.spacingX)

/-- a node with ports has at least as many as were opened -/
theorem le_length_portsOf_openPorts (c : Canvas) (source : String) (count : Nat) :
    count ≤ ((c.openPorts source count).portsOf source).length := by
  have hcount := Connections.length_ports_ensurePorts c.connections (.text source) mainType count
  exact (Nat.le_max_left _ _).trans hcount.ge

theorem openSwitch_opens {c : Canvas} {at' : Cursor} (h : c.LeftOf cfg at'.current at'.x) (y : Int) {r : Requirement}
    {rest : List Requirement} (hswitch : r.isSwitch = true)
    (hasked : requirements c.nodes c.branch ++ r :: rest = p.asked c.branch) :
    Opens cfg p c (r :: routesOf (switchLabels r.text) rest) (at'.x + cfg.spacingX)
      (openSwitch cfg c at' y r (switchLabels r.text) (routesOf (switchLabels r.text) rest)) := by
  have hfew := length_routesOf_le (switchLabels r.text) rest
  have htype : Catalog.isTriggerType (Catalog.fullTag "switch") = false := by decide +kernel
  generalize hs : openSwitch cfg c at' y r (switchLabels r.text) (routesOf (switchLabels r.text) rest) = s
  have hcanvas := congrArg OpenSwitch.canvas hs
  unfold openSwitch at hs
  dsimp only at hs
  generalize hroutes : routesOf (switchLabels r.text) rest = routes at hfew hs ⊢
  generalize hlabels :
    (if routes.isEmpty then switchLabels r.text else (switchLabels r.text).take routes.length) = labels at hs
  obtain ⟨hsome, hle, hlength⟩ := length_usedLabels (switchLabels_ne_nil r.text) hfew hlabels
  generalize hq : NodeRequest.mk (Catalog.fullTag "switch") r.name at'.x y (switchRules labels) 1 (.step r) = q at hs
  have hinner : q.Inner cfg := hq ▸ ⟨fun _ => htype, rfl⟩
  have horigin : q.origin = .step r := hq ▸ rfl
  have hx : q.x = at'.x := hq ▸ rfl
  rw [connect_add, add_name] at hs
  have hfeeds : ∀ f ∈ [Feed.mk at'.current 0 0], c.MayFeed cfg q.x f :=
    List.forall_mem_singleton.2 (hx ▸ mayFeed_first h)
  have hgrown := extends_grow c (horigin ▸ trivial : q.origin.Inside) [Feed.mk at'.current 0 0]
  have hleft := leftOf_grow (List.cons_ne_nil _ _) hfeeds
  rw [horigin] at hgrown
  rw [hx] at hleft
  have hmany := le_length_portsOf_openPorts (c.grow q [Feed.mk at'.current 0 0]) (c.newNode q).name labels.length
  generalize hopen : Canvas.openPorts _ (c.newNode q).name labels.length = router at hmany hs
  generalize hnoted : Canvas.note router "switch" _ = opened at hs
  subst hs
  have hopened : Extends c [r] opened := hnoted ▸ hopen ▸ (hgrown.openPorts _ _).note _ _
  have hrouter : opened.LeftOf cfg (c.newNode q).name (at'.x + cfg.spacingX) :=
    hnoted ▸ hopen ▸ (hleft.openPorts _ _).note _ _
  have hports : opened.portsOf (c.newNode q).name = router.portsOf (c.newNode q).name := hnoted ▸ rfl
  have hfirst : Act cfg router opened := hnoted ▸ .noted _ _ _
  have hlaid := layRoutes_routes hrouter y 0 routes (by rw [hports]; omega)
  have hgrowth : Growth cfg p c (layRoutes cfg opened (c.newNode q).name (at'.x + cfg.spacingX) y 0 routes).1 := by
    refine .routed r rest labels q [⟨at'.current, 0, 0⟩] hswitch hasked hinner horigin (hq ▸ rfl) (hq ▸ rfl) hsome
      (List.cons_ne_nil _ _) hfeeds hopen.symm (Relation.ReflTransGen.head hfirst hlaid.goes.runs)
      (hlaid.count.trans (congrArg List.length hports)) ?_ at' y h hcanvas.symm
    by_cases hempty : routes = []
    · exact Or.inl (hroutes.trans hempty)
    · right
      intro i hi
      rw [hlength hempty] at hi
      exact hlaid.filled i (Nat.zero_le i) (by omega)
  exact ⟨⟨hopened.trans hlaid.goes.toExtends, Relation.ReflTransGen.single hgrowth⟩, hlaid.goes.leftOf hrouter,
    hlaid.ends⟩

/-! ## Branches -/

/-- what a handler of the requirements `reqs` of a branch leaves: it takes the first of them, and the branch goes on -/
def Handles (cfg : BuildConfig) (p : Plan) (c : Canvas) (reqs : List Requirement)
    (out : Canvas × Cursor × List Requirement) : Prop :=
  ∃ taken, taken ++ out.2.2 = reqs ∧ Ends cfg (Growth cfg p) c taken out.1 out.2.1

section

variable {c : Canvas} {at' : Cursor} (h : c.LeftOf cfg at'.current at'.x) (y : Int) (pending : Bool)

include h

theorem laySwitch_handles {r : Requirement} {rest : List Requirement} (hswitch : r.isSwitch = true)
    (hasked : requirements c.nodes c.branch ++ r :: rest = p.asked c.branch) :
    Handles cfg p c (r :: rest) (laySwitch cfg pending c at' y r rest) := by
  have hopens := openSwitch_opens h y hswitch hasked
  have hrest := routesOf_append_drop (switchLabels r.text) rest
  unfold laySwitch
  dsimp only
  generalize routesOf (switchLabels r.text) rest = routes at hopens hrest ⊢
  obtain ⟨taken, htaken, hends⟩ := closeSwitch_ends pending hopens.router hopens.ends y (rest.drop routes.length)
  refine ⟨(r :: routes) ++ taken, ?_, hends.grown.after hopens.goes⟩
  rw [List.append_assoc, htaken, List.cons_append, hrest]

theorem layPlain_handles {r : Requirement} {rest : List Requirement}
    (hasked : requirements c.nodes c.branch ++ r :: rest = p.asked c.branch) :
    Handles cfg p c (r :: rest) (layPlain cfg pending c at' y r rest) := by
  unfold layPlain
  split
  · rename_i hswitch
    exact laySwitch_handles h y pending hswitch hasked
  · have hplaced := ends_place (mayFeed_first h) r y
    exact ⟨[r], rfl, hplaced.grown⟩

theorem layStep_handles {r : Requirement} {rest : List Requirement}
    (hasked : requirements c.nodes c.branch ++ r :: rest = p.asked c.branch) :
    Handles cfg p c (r :: rest) (layStep cfg pending c at' y r rest) := by
  unfold layStep
  split
  · dsimp only
    split
    · have hnoted := goes_note cfg c "parallel-fallthrough"
        [("node", r.name), ("rows", .int (rowsOf r rest).rows.length)]
      obtain ⟨taken, htaken, hends⟩ := layPlain_handles (hnoted.leftOf h) y pending hasked
      exact ⟨taken, htaken, hends.after hnoted.grown⟩
    · rename_i hmany
      have hrows : (rowsOf r rest).rows ≠ [] := by
        intro hnone
        rw [hnone] at hmany
        exact hmany (by decide)
      obtain ⟨taken, htaken, hends⟩ := layParallel_ends h y r rest hrows
      exact ⟨taken, htaken, hends.grown⟩
  · exact layPlain_handles h y pending hasked

/-- **A branch grows by a node for each of its requirements**, in order. -/
theorem layAll_ends {rs : List Requirement} (hasked : requirements c.nodes c.branch ++ rs = p.asked c.branch) :
    Ends cfg (Growth cfg p) c rs (layAll cfg pending c at' y rs).1 (layAll cfg pending c at' y rs).2 := by
  induction c, at', rs using layAll.induct cfg pending y with
  | case1 c at' =>
    rw [layAll]
    exact ⟨Goes.refl _ c, h⟩
  | case2 c at' r rest next ih =>
    obtain ⟨taken, htaken, hends⟩ := layStep_handles h y pending hasked
    have hleft : requirements next.1.nodes next.1.branch ++ next.2.2 = p.asked next.1.branch := by
      rw [hends.requirements, List.append_assoc, htaken, hends.branch]
      exact hasked
    rw [layAll]
    have hrest := (ih hends.stands hleft).after hends.toGoes
    rw [htaken] at hrest
    exact hrest

end

/-! ## The plan -/

/-- a branch has begun with a trigger left of the column after `x` -/
structure Begins (cfg : BuildConfig) (p : Plan) (c : Canvas) (k : Nat) (x : Int) (out : String × Canvas) : Prop where
  runs : Relation.ReflTransGen (Growth cfg p) c out.2
  branch : out.2.branch = some k
  nodes : ∃ t : PlacedNode, out.2.nodes = c.nodes ++ [t] ∧ t.branch = some k ∧ t.origin = .trigger
  stands : out.2.LeftOf cfg out.1 (x + cfg.spacingX)

theorem Begins.note {c : Canvas} {k : Nat} {x : Int} {name : String} {d : Canvas} (h : Begins cfg p c k x (name, d))
    (rule : String) (detail : List (String × Value)) : Begins cfg p c k x (name, d.note rule detail) :=
  ⟨h.runs.tail (.acted (.noted d rule detail)), h.branch, h.nodes, h.stands.note rule detail⟩

theorem begins_add {c : Canvas} {k : Nat} (hnew : ∀ n ∈ c.nodes, n.branch ≠ some k) (y : Int) {r : NodeRequest}
    (horigin : r.origin = .trigger) (htype : Catalog.isTriggerType r.type = true) (hplain : r.Plain) :
    Begins cfg p c k r.x ({ c with branch := some k, lowestY := y }.add r) := by
  have hgrowth : Growth cfg p c _ := .begun c k y r hnew horigin htype hplain
  generalize hd : ({ c with branch := some k, lowestY := y } : Canvas) = d at hgrowth ⊢
  have hbranch : d.branch = some k := hd ▸ rfl
  have hnodes : (d.add r).2.nodes = c.nodes ++ [d.newNode r] := (nodes_add d r).trans (hd ▸ rfl)
  have hmem : d.newNode r ∈ (d.add r).2.nodes := by
    rw [hnodes]
    simp
  refine ⟨Relation.ReflTransGen.single hgrowth, (branch_add d r).trans hbranch,
    ⟨d.newNode r, hnodes, hbranch, horigin⟩, k, (branch_add d r).trans hbranch, d.newNode r, hmem, rfl, hbranch,
    fun hspacing => ?_⟩
  show r.x < r.x + cfg.spacingX
  omega

theorem addTrigger_begins {c : Canvas} {k : Nat} (hnew : ∀ n ∈ c.nodes, n.branch ≠ some k) (y : Int) (text : String)
    (x : Int) : Begins cfg p c k x (addTrigger { c with branch := some k, lowestY := y } text x y) := by
  have hadd : ∀ short ∈ ["webhook", "scheduleTrigger", "errorTrigger", "manualTrigger"], ∀ wanted params,
      Begins cfg p c k x ({ c with branch := some k, lowestY := y }.add
        ⟨Catalog.fullTag short, wanted, x, y, params, 1, .trigger⟩) := by
    intro short hshort wanted params
    obtain ⟨htype, hswitch⟩ := isTriggerType_of_start short hshort
    exact begins_add (r := ⟨Catalog.fullTag short, wanted, x, y, params, 1, .trigger⟩) hnew y rfl htype
      fun h => absurd h hswitch
  have hplaced : ∀ lower, Begins cfg p c k x (placeTrigger { c with branch := some k, lowestY := y } lower x y) := by
    intro lower
    unfold placeTrigger
    dsimp only
    split
    · exact hadd "webhook" (by simp) _ _
    · split
      · exact (hadd "scheduleTrigger" (by simp) _ _).note _ _
      · split
        · exact hadd "errorTrigger" (by simp) _ _
        · exact hadd "manualTrigger" (by simp) _ _
  exact (hplaced (Text.lower text)).note _ _

/-- an answer is one node more, if it is not there already -/
theorem addResponse_grows {c : Canvas} {at' : Cursor} (h : c.LeftOf cfg at'.current at'.x) (y : Int) :
    Relation.ReflTransGen (Growth cfg p) c (addResponse c at' y) ∧
      ∃ answer : Option PlacedNode, (addResponse c at' y).nodes = c.nodes ++ answer.toList ∧
        ∀ n ∈ answer, n.branch = c.branch ∧ n.origin = .response := by
  obtain ⟨htype, hswitch⟩ := isTriggerType_of_madeUp "respondToWebhook" (by simp)
  unfold addResponse
  dsimp only
  split
  · exact ⟨Relation.ReflTransGen.refl, none, by simp⟩
  · rw [connect_add]
    generalize hq : NodeRequest.mk responseType "Respond to Webhook" at'.x y [] 1 .response = q
    have hinner : q.Inner cfg := hq ▸ ⟨fun _ => htype, rfl, rfl⟩
    have hplain : q.Plain := hq ▸ fun h => absurd h hswitch
    have hfeeds : ∀ f ∈ [Feed.mk at'.current 0 0], c.MayFeed cfg q.x f :=
      List.forall_mem_singleton.2 (hq ▸ mayFeed_first h)
    have hact : Act cfg c (c.grow q [⟨at'.current, 0, 0⟩]) := .placed c q _ hinner hplain (List.cons_ne_nil _ _) hfeeds
    refine ⟨Relation.ReflTransGen.single (.acted hact), some (c.newNode q), nodes_grow c q _, ?_⟩
    rintro n hn
    cases hn
    exact ⟨rfl, hq ▸ rfl⟩

/-- what stands in a branch: its trigger, then a node for each of its requirements, in order and with joints among them,
and at the end the answer that it owes, unless there is one -/
def Laid (nodes : List PlacedNode) (k : Nat) (b : PlanBranch) : Prop :=
  ∃ t body, ∃ answer : Option PlacedNode,
    (nodes.filter fun n => n.branch = some k) = t :: body ++ answer.toList ∧
      t.origin = .trigger ∧ (∀ n ∈ body, n.origin.Inside) ∧
      body.filterMap (fun n => n.origin.requirement?) = b.requirements ∧
      ∀ n ∈ answer, n.origin = .response ∧ owesResponse b = true

/-- nodes of other branches make no difference -/
theorem laid_congr {nodes nodes' : List PlacedNode} {k : Nat} {b : PlanBranch} (h : Laid nodes k b)
    (hsame : (nodes'.filter fun n => n.branch = some k) = nodes.filter fun n => n.branch = some k) :
    Laid nodes' k b := by
  unfold Laid at h ⊢
  rwa [hsame]

/-- a branch laid out adds nodes for its requirements -/
theorem layBranch_grows (cfg : BuildConfig) {c : Canvas} {number : Nat} (hnew : ∀ n ∈ c.nodes, n.branch ≠ some number)
    {b : PlanBranch} (hb : p.branches[number]? = some b) (y : Int) :
    Relation.ReflTransGen (Growth cfg p) c (layBranch cfg c number b y) ∧
      ∃ added, (layBranch cfg c number b y).nodes = c.nodes ++ added ∧ (∀ n ∈ added, n.branch = some number) ∧
        Laid added number b := by
  have hasked : p.asked (some number) = b.requirements := by
    rw [Plan.asked, Option.bind_some, hb]
    rfl
  have hbegins : Begins cfg p c number cfg.startX _ := addTrigger_begins hnew y b.triggerType cfg.startX
  unfold layBranch
  dsimp only
  generalize addTrigger _ b.triggerType cfg.startX y = out at hbegins ⊢
  obtain ⟨trigger, d⟩ := out
  obtain ⟨t, hnodes, ht, htrigger⟩ := hbegins.nodes
  have hnone : t.origin.requirement? = none := by rw [htrigger]; rfl
  have hstart : requirements d.nodes d.branch ++ b.requirements = p.asked d.branch := by
    rw [hbegins.branch, hasked, hnodes, requirements_append, requirements_of_others hnew,
      requirements_of_branch (List.forall_mem_singleton.2 ht)]
    simp [hnone]
  dsimp only
  generalize hfirst : Cursor.mk trigger (cfg.startX + cfg.spacingX) = first
  have hleft : d.LeftOf cfg first.current first.x := hfirst ▸ hbegins.stands
  have hall := layAll_ends hleft y (owesResponse b) hstart
  generalize layAll cfg (owesResponse b) d first y b.requirements = out at hall ⊢
  obtain ⟨e, stop⟩ := out
  obtain ⟨body, hbody, hbranch, hinside, htaken⟩ := hall.nodes
  rw [hbegins.branch] at hbranch
  have hruns := Relation.ReflTransGen.trans hbegins.runs hall.runs
  -- the canvas at the end, with or without an answer
  have hend : ∀ answer : Option PlacedNode, (∀ n ∈ answer, n.branch = some number) →
      (∀ n ∈ answer, n.origin = .response ∧ owesResponse b = true) → ∃ added,
        e.nodes ++ answer.toList = c.nodes ++ added ∧ (∀ n ∈ added, n.branch = some number) ∧ Laid added number b := by
    intro answer hanswer hresponse
    have hadded : ∀ n ∈ t :: body ++ answer.toList, n.branch = some number :=
      List.forall_mem_append.2 ⟨List.forall_mem_cons.2 ⟨ht, hbranch⟩, by simpa using hanswer⟩
    refine ⟨t :: body ++ answer.toList, ?_, hadded, t, body, answer, ?_, htrigger, hinside, htaken, hresponse⟩
    · show e.nodes ++ answer.toList = _
      rw [hbody, hnodes]
      simp
    · exact List.filter_eq_self.2 fun n hn => decide_eq_true (hadded n hn)
  dsimp only
  split
  · rename_i howes
    obtain ⟨hanswered, answer, hnodes', hanswer⟩ := addResponse_grows (p := p) hall.stands y
    rw [hnodes']
    have hbranches : ∀ n ∈ answer, n.branch = some number := fun n hn =>
      (hanswer n hn).1.trans (hall.branch.trans hbegins.branch)
    exact ⟨Relation.ReflTransGen.trans hruns hanswered,
      hend answer hbranches fun n hn => ⟨(hanswer n hn).2, howes⟩⟩
  · have hplain := hend none (by simp) (by simp)
    rw [Option.toList_none, List.append_nil] at hplain
    exact ⟨hruns, hplain⟩

/-- branches laid out one below the other, the first having the given number -/
theorem layBranches_grows (cfg : BuildConfig) {c : Canvas} {number : Nat}
    (hold : ∀ n ∈ c.nodes, ∀ k, n.branch = some k → k < number) {bs : List PlanBranch}
    (hbs : p.branches.drop number = bs) (y : Int) :
    Relation.ReflTransGen (Growth cfg p) c (layBranches cfg c number y bs) ∧
      ∃ added, (layBranches cfg c number y bs).nodes = c.nodes ++ added ∧
        (∀ n ∈ added, ∃ k, n.branch = some k ∧ number ≤ k) ∧ ∀ i b, bs[i]? = some b → Laid added (number + i) b := by
  induction bs generalizing c number y with
  | nil => exact ⟨Relation.ReflTransGen.refl, [], by simp [layBranches]⟩
  | cons b rest ih =>
    have hb : p.branches[number]? = some b := by
      have hhead := congrArg List.head? hbs
      rwa [List.head?_drop] at hhead
    have hrest : p.branches.drop (number + 1) = rest := by
      rw [← List.drop_drop, hbs]
      rfl
    have hnew : ∀ n ∈ c.nodes, n.branch ≠ some number := fun n hn hk => Nat.lt_irrefl _ (hold n hn number hk)
    obtain ⟨hruns, first, hfirst, hbranch, hlaid⟩ := layBranch_grows cfg hnew hb y
    rw [layBranches]
    generalize layBranch cfg c number b y = d at hruns hfirst ⊢
    have hold' : ∀ n ∈ d.nodes, ∀ k, n.branch = some k → k < number + 1 := by
      intro n hn k hk
      rw [hfirst] at hn
      rcases List.mem_append.1 hn with hn | hn
      · exact Nat.lt_succ_of_lt (hold n hn k hk)
      · rw [hbranch n hn] at hk
        cases hk
        exact Nat.lt_succ_self number
    obtain ⟨hruns', others, hothers, hlater, hlaid'⟩ := ih hold' hrest (d.lowestY + cfg.branchGap)
    refine ⟨Relation.ReflTransGen.trans hruns hruns', first ++ others, ?_, ?_, fun i b' hi => ?_⟩
    · rw [hothers, hfirst, List.append_assoc]
    · refine List.forall_mem_append.2 ⟨fun n hn => ⟨number, hbranch n hn, le_refl _⟩, fun n hn => ?_⟩
      obtain ⟨k, hk, hle⟩ := hlater n hn
      exact ⟨k, hk, by omega⟩
    · cases i with
      | zero =>
        cases hi
        refine laid_congr hlaid ?_
        have hnone : others.filter (fun n => n.branch = some number) = [] := by
          refine filter_of_others fun n hn hk => ?_
          obtain ⟨k, hk', hle⟩ := hlater n hn
          cases hk.symm.trans hk'
          omega
        rw [Nat.add_zero, List.filter_append, hnone, List.append_nil]
      | succ i =>
        have hlaid := hlaid' i b' hi
        rw [Nat.add_right_comm, Nat.add_assoc] at hlaid
        refine laid_congr hlaid ?_
        have hnone : first.filter (fun n => n.branch = some (number + (i + 1))) = [] :=
          filter_of_others fun n hn hk => by cases (hbranch n hn).symm.trans hk
        rw [List.filter_append, hnone, List.nil_append]

/-- errors are handled by nodes that belong to no branch -/
theorem addErrorHandling_grows (cfg : BuildConfig) (c : Canvas) :
    Relation.ReflTransGen (Growth cfg p) c (addErrorHandling cfg c) ∧
      ∃ added, (addErrorHandling cfg c).nodes = c.nodes ++ added ∧ ∀ n ∈ added, n.branch = none := by
  have htrigger := isTriggerType_of_start "errorTrigger" (by simp)
  have hmail := isTriggerType_of_madeUp "emailSend" (by simp)
  have hright : 0 < cfg.spacingX → cfg.startX < cfg.startX + cfg.spacingX := fun hspacing => by omega
  unfold addErrorHandling
  dsimp only
  generalize hr : NodeRequest.mk (Catalog.fullTag "errorTrigger") _ _ _ _ _ _ = r
  generalize hr' : NodeRequest.mk (Catalog.fullTag "emailSend") _ _ _ _ _ _ = r'
  have hgrowth : Growth cfg p c _ := .handled c r r' (hr ▸ rfl) (hr' ▸ rfl) (hr ▸ htrigger.1) (hr' ▸ hmail.1)
    (hr ▸ fun h => absurd h htrigger.2) (hr' ▸ fun h => absurd h hmail.2) (hr ▸ hr' ▸ hright)
  rw [connect_add, add_name]
  generalize hd : ({ c with branch := none } : Canvas) = d at hgrowth ⊢
  have hbranch : d.branch = none := hd ▸ rfl
  have hnodes : ((d.add r).2.grow r' [⟨(d.newNode r).name, 0, 0⟩]).nodes =
      c.nodes ++ [d.newNode r, (d.add r).2.newNode r'] := by
    rw [nodes_grow, nodes_add, ← hd, List.append_assoc]
    rfl
  generalize (d.add r).2.grow r' [⟨(d.newNode r).name, 0, 0⟩] = e at hgrowth hnodes ⊢
  refine ⟨(Relation.ReflTransGen.single hgrowth).tail (.acted (.noted _ _ _)), _, hnodes, ?_⟩
  exact List.forall_mem_cons.2 ⟨hbranch, List.forall_mem_singleton.2 ((branch_add d r).trans hbranch)⟩

/-- **The layout of a plan grows from the empty canvas**, and every branch has its trigger and the nodes of its
requirements. -/
theorem lay_grows (cfg : BuildConfig) (sources : Identifiers) (p : Plan) :
    Relation.ReflTransGen (Growth cfg p) (.empty sources) (lay cfg sources p) ∧
      ∀ k b, p.branches[k]? = some b → Laid (lay cfg sources p).nodes k b := by
  obtain ⟨hruns, added, hnodes, -, hlaid⟩ := layBranches_grows cfg (c := .empty sources) (by simp [Canvas.empty])
    (List.drop_zero : p.branches.drop 0 = p.branches) cfg.startY
  have hadded : ∀ k b, p.branches[k]? = some b → Laid added k b := by
    intro k b hb
    have hk := hlaid k b hb
    rwa [Nat.zero_add] at hk
  unfold lay
  dsimp only
  generalize layBranches cfg (.empty sources) 0 cfg.startY p.branches = c at hruns hnodes ⊢
  have hempty : c.nodes = added := hnodes
  split
  · obtain ⟨hruns', handling, hhandling, hnone⟩ := addErrorHandling_grows cfg (p := p) c
    refine ⟨Relation.ReflTransGen.trans hruns hruns', fun k b hb => laid_congr (hadded k b hb) ?_⟩
    have hothers : handling.filter (fun n => n.branch = some k) = [] :=
      filter_of_others fun n hn hk => by simp [hnone n hn] at hk
    rw [hhandling, List.filter_append, hempty, hothers, List.append_nil]
  · exact ⟨hruns, fun k b hb => hempty ▸ hadded k b hb⟩

/-! ## Steps -/

theorem leads_of_act {c d : Canvas} (h : Act cfg c d) : Leads c d := by
  cases h with
  | noted rule detail => exact leads_of_step (.noted c rule detail)
  | placed r feeds hr hplain hne hfeeds => exact leads_grow fun f hf => (hfeeds f hf).1.places

theorem leads_of_acts {c d : Canvas} (h : Relation.ReflTransGen (Act cfg) c d) : Leads c d :=
  keep_of_acts (fun hact hbefore => hbefore.trans (leads_of_act hact)) h (Leads.refl c)

/-- growth is made of steps -/
theorem leads_of_growth {c d : Canvas} (h : Growth cfg p c d) : Leads c d := by
  cases h with
  | acted hact => exact leads_of_act hact
  | begun k y r hnew horigin htype hplain =>
    exact (leads_of_step (.turned c (some k) y)).tail (.added _ r)
  | routed q rest labels r feeds hq hasked hr horigin htype hrules hlabels hne hfeeds hrouter hroutes hcount hfilled =>
    have hgrown : Leads c (c.grow r feeds) := leads_grow fun f hf => (hfeeds f hf).1.places
    have hplaces : (c.grow r feeds).Places (c.newNode r).name := c.places_grow r feeds
    subst hrouter
    exact (hgrown.tail (.opened _ _ labels.length hplaces)).trans (leads_of_acts hroutes)
  | handled r r' =>
    have hadded := (leads_of_step (.turned c none c.lowestY)).tail (.added _ r)
    exact hadded.trans (leads_grow (List.forall_mem_singleton.2 (places_newNode _ r)))

theorem leads_of_growths {c d : Canvas} (h : Relation.ReflTransGen (Growth cfg p) c d) : Leads c d := by
  induction h with
  | refl => exact Leads.refl c
  | tail _ hgrowth ih => exact ih.trans (leads_of_growth hgrowth)

/-- **A layout is a sequence of steps** from the empty canvas. -/
theorem lay_leads (cfg : BuildConfig) (sources : Identifiers) (p : Plan) :
    Leads (.empty sources) (lay cfg sources p) :=
  leads_of_growths (lay_grows cfg sources p).1

/-- what the empty canvas has, and growth keeps, the layout of a plan has -/
theorem lay_induction {I : Canvas → Prop} {sources : Identifiers} (hempty : I (.empty sources))
    (hgrowth : ∀ {c d}, Leads (.empty sources) c → Growth cfg p c d → I c → I d) : I (lay cfg sources p) := by
  have hrun : ∀ {c}, Relation.ReflTransGen (Growth cfg p) (.empty sources) c → I c := by
    intro c hc
    induction hc with
    | refl => exact hempty
    | tail hbefore hstep ih => exact hgrowth (leads_of_growths hbefore) hstep ih
  exact hrun (lay_grows cfg sources p).1

end Synthesis

end WorkflowGraph
