import WorkflowGraph.Proofs.Connections.Written
import WorkflowGraph.Proofs.Rows
import WorkflowGraph.Proofs.Validation.Concerns
/-
One node more, apart from all others. A node with a name of its own, which no edge leads from or to, and on a row of its
own changes nothing that is said about the others: it is the end of no edge, no node follows it, and it follows none.
What is said about the node itself is that no edge leads to it.

- `Aside.reached_iff`, `Aside.outgoing_eq`: what edges lead to, and what follows on a row, stays the same.
- `validate_withNode`: the report on a document with one such node more.
-/
namespace WorkflowGraph

/-! ## Documents -/

namespace Document

/-- a document with one more node at the end of its list -/
def withNode (document : Fields) (v : Node) : Fields :=
  Table.put (.text "nodes") (.list (((Value.field "nodes" document).list?).getD [] ++ [v.toValue])) document

variable (document : Fields) (v : Node)

theorem get?_withNode {name : String} (h : name ≠ "nodes") :
    Table.get? (.text name) (withNode document v) = Table.get? (.text name) document := by
  rw [withNode, Table.get?_put, Key.text_beq_text, if_neg (by simpa using h.symm)]

theorem get?_nodes_withNode : Table.get? (.text "nodes") (withNode document v) =
    some (.list (((Value.field "nodes" document).list?).getD [] ++ [v.toValue])) := by
  rw [withNode, Table.get?_put, if_pos (by simp)]

theorem connections_withNode : Value.field "connections" (withNode document v) = Value.field "connections" document := by
  rw [Value.field, Value.field, get?_withNode document v (by decide)]

theorem field_nodes_withNode : Value.field "nodes" (withNode document v) =
    .list (((Value.field "nodes" document).list?).getD [] ++ [v.toValue]) := by
  rw [Value.field, get?_nodes_withNode]
  rfl

theorem nodesOf_withNode : nodesOf (Value.field "nodes" (withNode document v)) =
    nodesOf (Value.field "nodes" document) ++ [v] := by
  rw [field_nodes_withNode, nodesOf, nodesOf, Value.list?, Option.getD_some, List.filterMap_append]
  rfl

variable {document}

/-- nodes stand in a list -/
theorem list_of_nodesOf (h : nodesOf (Value.field "nodes" document) ≠ []) :
    ∃ items, Table.get? (.text "nodes") document = some (.list items) := by
  unfold Value.field at h
  cases hget : Table.get? (Key.text "nodes") document with
  | none => simp [hget, nodesOf, Value.list?] at h
  | some nodes =>
    cases nodes with
    | list items => exact ⟨items, rfl⟩
    | _ => simp [hget, nodesOf, Value.list?] at h

/-- a node of the right shape adds nothing that is wrong with the shape of the document -/
theorem schemaIssues_withNode {v : Node} (hn : nodesOf (Value.field "nodes" document) ≠ [])
    (hv : Schema.node.violations [] v.toValue = []) :
    Validation.schemaIssues (withNode document v) = Validation.schemaIssues document := by
  obtain ⟨items, hitems⟩ := list_of_nodesOf hn
  have hwith := get?_nodes_withNode document v
  rw [Value.field, hitems, Option.getD_some, Value.list?, Option.getD_some] at hwith
  unfold Validation.schemaIssues
  rw [workflow_violations_of_nodes (fun _ hname => get?_withNode document v hname) hwith hitems
    (nodeList_violations_concat hv _ items)]

end Document

namespace Validation

/-- a node of the right shape, about which nothing can be wrong by itself, and to which nothing in a document refers -/
structure Aside (cfg : BuildConfig) (document : Fields) (v : Node) (name : String) : Prop where
  shape : Schema.node.violations [] v.toValue = []
  plain : v.isTrigger = false ∧ v.isSwitch = false
  complete : Parameters.missing v = []
  named : v.name = .text name
  fresh : ¬ Known (Document.nodesOf (Value.field "nodes" document)) name
  /-- the name is no source and no target of the connections in their normal form -/
  unlinked : ∀ c, Connections.normalize (Value.field "connections" document) = .ok c →
    Key.text name ∉ c.sources ∧ name ∉ c.targets
  /-- no node of the document is on its row, and it is on the row of none -/
  apart : ∀ n ∈ Document.nodesOf (Value.field "nodes" document),
    Rows.onRow (.whole cfg.rowTolerance) n v = false ∧ Rows.onRow (.whole cfg.rowTolerance) v n = false

/-! ## Checks of one node more -/

section

variable {ns : List Named} {x : Named}

theorem named_concat {nodes : List Node} {ns' : List Named} {v : Node} {name : String} (hname : v.name = .text name)
    (h : named nodes = .ok ns) (h' : named (nodes ++ [v]) = .ok ns') : ns' = ns ++ [Named.mk (.text name) v] := by
  unfold named at h h'
  rw [List.mapM_append, h, List.mapM_cons, List.mapM_nil, hname, Value.toKey_text] at h'
  exact (Except.ok.inj h').symm

theorem triggerKeys_concat {k : Key} {v : Node} (hv : v.isTrigger = false) :
    triggerKeys (ns ++ [Named.mk k v]) = triggerKeys ns := by
  simp [triggerKeys, hv]

theorem followers_concat {k : Key} {v : Node} (hv : v.isTrigger = false) :
    followers (ns ++ [Named.mk k v]) = followers ns ++ [v] := by
  simp [followers, hv]

/-- a name that no node has is counted once -/
theorem nameIssues_concat (hx : ∀ y ∈ ns, (y.key == x.key) = false) : nameIssues (ns ++ [x]) = nameIssues ns := by
  have hnew : Table.has x.key (nameCounts ns) = false := by
    rw [Table.has_eq_false_iff]
    unfold nameCounts
    refine List.foldlRecOn ns _ (motive := fun t : Table Key Nat => ∀ e ∈ t, (e.1 == x.key) = false) (by simp) ?_
    intro t ht y hy
    exact Table.forall_modify (P := fun k _ => (k == x.key) = false) ht (hx y hy) fun _ _ _ hold => hold
  have hcounts : nameCounts (ns ++ [x]) = nameCounts ns ++ [(x.key, 1)] := by
    unfold nameCounts at hnew ⊢
    rw [List.foldl_append, List.foldl_cons, List.foldl_nil, Table.modify_of_not_has hnew]
    rfl
  unfold nameIssues
  rw [hcounts, List.filterMap_append]
  simp

/-- a known name that is the end of no edge -/
theorem danglingIssues_concat {known reported : List Key} {k : Key} {refs : List (Key × Link)}
    (hk : ∀ r ∈ refs, (r.1 == k) = false) :
    danglingIssues (known ++ [k]) reported refs = danglingIssues known reported refs := by
  induction refs generalizing reported with
  | nil => rfl
  | cons r refs ih =>
    rw [List.forall_mem_cons] at hk
    have hcontains : (known ++ [k]).contains r.1 = known.contains r.1 := by simp [hk.1]
    unfold danglingIssues
    rw [hcontains, ih hk.2, ih hk.2]

theorem flatten_mapM_concat {f : Named → Except Fault (List Issue)} {found found' : List (List Issue)}
    (hx : f x = .ok []) (h : ns.mapM f = .ok found) (h' : (ns ++ [x]).mapM f = .ok found') :
    found'.flatten = found.flatten := by
  rw [List.mapM_append, h, List.mapM_cons, List.mapM_nil, hx] at h'
  cases h'
  simp

/-- a node that follows no other, and that no other follows -/
theorem outgoingIssues_concat {cfg : BuildConfig} {c : Connections} {candidates : List Node} {disconnected : List Key}
    {v : Node} {k : Key} {found : List Issue}
    (hapart : (v.name == x.node.name) = true ∨ Rows.onRow (.whole cfg.rowTolerance) x.node v = false)
    (hk : ∀ n ∈ candidates, ∀ key, n.name.toKey = .ok key → (key == k) = false)
    (h : outgoingIssues cfg c (candidates ++ [v]) (disconnected ++ [k]) x = .ok found) :
    outgoingIssues cfg c candidates disconnected x = .ok found := by
  unfold outgoingIssues at h ⊢
  split at h
  · rename_i hclosed
    rw [if_pos hclosed]
    exact h
  · rename_i hopen
    rw [if_neg hopen]
    obtain ⟨follower, hfollower, h⟩ := bind_eq_ok.1 h
    have hbefore : Rows.successor id (.whole cfg.rowTolerance) (.whole cfg.rowMinDx) x.node candidates = .ok follower :=
      Rows.successor_concat hapart hfollower
    rw [hbefore]
    cases follower with
    | none => exact h
    | some n =>
      obtain ⟨key, hkey, h⟩ := bind_eq_ok.1 h
      have hother := hk n (Rows.mem_of_successor hbefore) key hkey
      have hcontains : (disconnected ++ [k]).contains key = disconnected.contains key := by simp [hother]
      rw [hcontains] at h
      show (do let key ← n.name.toKey; _) = _
      rw [hkey]
      exact h

theorem outgoingIssues_eq_nil {cfg : BuildConfig} {c : Connections} {candidates : List Node} {disconnected : List Key}
    {found : List Issue} (hapart : ∀ n ∈ candidates, Rows.onRow (.whole cfg.rowTolerance) x.node n = false)
    (h : outgoingIssues cfg c candidates disconnected x = .ok found) : found = [] := by
  refine List.eq_nil_iff_forall_not_mem.2 fun i hi => ?_
  obtain ⟨-, -, -, -, follower, hfollower⟩ := of_mem_outgoingIssues h hi
  have hrow := Rows.onRow_of_successor hfollower
  rw [id, hapart follower (Rows.mem_of_successor hfollower)] at hrow
  cases hrow

end

/-! ## The report -/

section

variable {cfg : BuildConfig} {document : Fields} {v : Node} {name : String}

/-- the key of another node is not the name of the node -/
theorem Aside.key_ne (h : Aside cfg document v name) {n : Node} {key : Key}
    (hn : n ∈ Document.nodesOf (Value.field "nodes" document)) (hkey : n.name.toKey = .ok key) :
    (key == Key.text name) = false := by
  by_contra hsame
  rw [Bool.not_eq_false] at hsame
  exact h.fresh ⟨n, hn, (key_eq_text_iff (x := ⟨key, n⟩) hkey).1 (Key.eq_text_of_beq hsame)⟩

/-- and neither is an end of an edge -/
theorem Aside.end_ne (h : Aside cfg document v name) {c : Connections}
    (hc : Connections.load (Value.field "connections" document) = .ok c) {ref : Key × Link} (hr : ref ∈ references c) :
    (ref.1 == Key.text name) = false := by
  obtain ⟨n, hn, -⟩ := map_eq_ok.1 hc
  obtain ⟨hl, hends⟩ := mem_references.1 hr
  obtain ⟨hsource, htarget⟩ := Connections.ends_of_load hn hc hl
  by_contra hsame
  rw [Bool.not_eq_false] at hsame
  have htext := Key.eq_text_of_beq hsame
  rcases hends with hend | hend
  · exact (h.unlinked n hn).1 (htext ▸ hend ▸ hsource)
  · obtain rfl := Key.text.inj (hend.symm.trans htext)
    exact (h.unlinked n hn).2 htarget

theorem Aside.not_joins (h : Aside cfg document v name) {c : Connections}
    (hc : Connections.load (Value.field "connections" document) = .ok c) :
    (∀ s, ¬ c.Joins (.text name) s) ∧ ∀ source, ¬ c.Joins source name := by
  have hkeyed := (Connections.load_form hc).1.toKeyed
  refine ⟨fun s hjoins => ?_, fun source hjoins => ?_⟩
  · obtain ⟨l, hl, hsource, -⟩ := hkeyed.exists_link_iff.2 hjoins
    have hend : (Key.text name, l) ∈ references c := mem_references.2 ⟨hl, Or.inl hsource.symm⟩
    simpa using h.end_ne hc hend
  · obtain ⟨l, hl, -, htarget⟩ := hkeyed.exists_link_iff.2 hjoins
    have hend : (Key.text name, l) ∈ references c := mem_references.2 ⟨hl, Or.inr (by rw [htarget])⟩
    simpa using h.end_ne hc hend

/-- edges reach the same names with the node and without it -/
theorem Aside.reached_iff (h : Aside cfg document v name) {c : Connections}
    (hc : Connections.load (Value.field "connections" document) = .ok c) (s : String) :
    Reached (Document.nodesOf (Value.field "nodes" document) ++ [v]) c s ↔
      Reached (Document.nodesOf (Value.field "nodes" document)) c s := by
  have hknown : ∀ t, t ≠ name → Known (Document.nodesOf (Value.field "nodes" document) ++ [v]) t →
      Known (Document.nodesOf (Value.field "nodes" document)) t := by
    rintro t ht ⟨n, hn, hname⟩
    rcases List.mem_append.1 hn with hn | hn
    · exact ⟨n, hn, hname⟩
    · rw [List.mem_singleton.1 hn, h.named, Value.text.injEq] at hname
      exact absurd hname.symm ht
  constructor
  · rintro ⟨hs, source, hsource, hjoins⟩
    refine ⟨hknown s ?_ hs, source, hknown source ?_ hsource, hjoins⟩
    · rintro rfl
      exact (h.not_joins hc).2 _ hjoins
    · rintro rfl
      exact (h.not_joins hc).1 s hjoins
  · exact fun hs => hs.mono (List.subset_append_left _ _) fun _ hjoins => hjoins

/-- and so do the edges of their graphs -/
theorem Aside.isReached_eq (h : Aside cfg document v name) {c : Connections}
    (hc : Connections.load (Value.field "connections" document) = .ok c) {g g' : Graph}
    (hg : ∀ s, isReached g (.text s) = true ↔ Reached (Document.nodesOf (Value.field "nodes" document)) c s)
    (hg' : ∀ s, isReached g' (.text s) = true ↔ Reached (Document.nodesOf (Value.field "nodes" document) ++ [v]) c s) :
    isReached g' = isReached g := by
  funext k
  cases k with
  | text s => rw [Bool.eq_iff_iff, hg', hg, h.reached_iff hc]
  | _ => rfl

section

variable {r r' : Report} {ns : List Named} {g g' : Graph} {c : Connections}
  {switches switches' outgoing outgoing' : List (List Issue)} (hv : Aside cfg document v name)
  (h : Examined cfg document r ns g c switches outgoing)
  (h' : Examined cfg (Document.withNode document v) r' (ns ++ [Named.mk (.text name) v]) g' c switches' outgoing')
  (hreached : isReached g' = isReached g) (hunreached : isReached g (.text name) = false)

include h

theorem mem_nodes_of_mem_followers {n : Node} (hn : n ∈ followers ns) :
    n ∈ Document.nodesOf (Value.field "nodes" document) := by
  rw [followers_eq, (named_spec h.nodes).1] at hn
  exact List.mem_of_mem_filter hn

include hv

theorem Aside.key_fresh : ∀ y ∈ ns, (y.key == Key.text name) = false := by
  obtain ⟨hns, hkeys⟩ := named_spec h.nodes
  exact fun y hy => hv.key_ne (hns ▸ List.mem_map_of_mem hy) (hkeys y hy)

include hreached hunreached

/-- the node is one more that no edge leads to -/
theorem Aside.filter_isDisconnected :
    (ns ++ [Named.mk (.text name) v]).filter (isDisconnected g' (triggerKeys ns)) =
      ns.filter (isDisconnected g (triggerKeys ns)) ++ [Named.mk (.text name) v] := by
  have hsame : isDisconnected g' (triggerKeys ns) = isDisconnected g (triggerKeys ns) := by
    funext y
    rw [isDisconnected, isDisconnected, hreached]
  have hnot : (triggerKeys ns).contains (Key.text name) = false := by
    rw [← Bool.not_eq_true, List.contains_iff_exists_mem_beq]
    rintro ⟨k, hk, hb⟩
    obtain ⟨y, hy, rfl⟩ := List.mem_map.1 hk
    exact absurd (BEq.symm hb) (by simp [hv.key_fresh h y (List.mem_of_mem_filter hy)])
  have hself : isDisconnected g (triggerKeys ns) ⟨.text name, v⟩ = true := by
    rw [isDisconnected, hnot, hunreached]
    rfl
  rw [hsame, List.filter_append, List.filter_cons_of_pos hself, List.filter_nil]

include h'

/-- outputs are reported as before -/
theorem Aside.outgoing_eq : outgoing'.flatten = outgoing.flatten := by
  have hkeys : disconnectedKeys g' (ns ++ [Named.mk (.text name) v]) = disconnectedKeys g ns ++ [.text name] := by
    rw [disconnectedKeys, triggerKeys_concat hv.plain.1, hv.filter_isDisconnected h hreached hunreached,
      List.map_append]
    rfl
  have houtputs := h'.outputs
  rw [followers_concat hv.plain.1, hkeys] at houtputs
  have hbefore : ∀ y ∈ ns ++ [Named.mk (.text name) v], ∃ found,
      outgoingIssues cfg c (followers ns ++ [v]) (disconnectedKeys g ns ++ [.text name]) y = .ok found ∧
        outgoingIssues cfg c (followers ns) (disconnectedKeys g ns) y = .ok found := by
    intro y hy
    obtain ⟨found, -, hfound⟩ := exists_mem_of_mapM houtputs hy
    refine ⟨found, hfound, outgoingIssues_concat ?_ ?_ hfound⟩
    · rcases List.mem_append.1 hy with hy | hy
      · exact Or.inr (hv.apart _ ((named_spec h.nodes).1 ▸ List.mem_map_of_mem hy)).1
      · rw [List.mem_singleton.1 hy]
        exact Or.inl (by simp [hv.named, Value.text_beq_text])
    · exact fun n hn key hkey => hv.key_ne (mem_nodes_of_mem_followers h hn) hkey
  have hself : outgoingIssues cfg c (followers ns) (disconnectedKeys g ns) ⟨.text name, v⟩ = .ok [] := by
    obtain ⟨found, -, hfound⟩ := hbefore ⟨.text name, v⟩ (by simp)
    rw [hfound, outgoingIssues_eq_nil (fun n hn => (hv.apart n (mem_nodes_of_mem_followers h hn)).2) hfound]
  refine flatten_mapM_concat hself h.outputs ((mapM_congr fun y hy => ?_).trans houtputs)
  obtain ⟨found, hfound, hfound'⟩ := hbefore y hy
  exact hfound'.trans hfound.symm

/-- what the checks find in a document with the node and in the one without it -/
theorem Aside.issues (hn : Document.nodesOf (Value.field "nodes" document) ≠ []) :
    ∃ before after, r.issues = before ++ after ∧
      r'.issues = before ++
        ⟨.error, .disconnected, "Node '" ++ name ++ "' has no incoming connection", true, .text name⟩ :: after := by
  have hports : switches'.flatten = switches.flatten := by
    refine flatten_mapM_concat ?_ h.ports h'.ports
    rw [switchIssues, if_pos (by simp [hv.plain.2])]
    rfl
  have hdisconnected : disconnectedIssues g' (triggerKeys ns) (ns ++ [Named.mk (.text name) v]) =
      disconnectedIssues g (triggerKeys ns) ns ++
        [⟨.error, .disconnected, "Node '" ++ name ++ "' has no incoming connection", true, .text name⟩] := by
    rw [disconnectedIssues, hv.filter_isDisconnected h hreached hunreached, List.map_append]
    rfl
  have hincoming : incomingIssues g' (triggerKeys ns) = incomingIssues g (triggerKeys ns) := by
    rw [incomingIssues, hreached, incomingIssues]
  have htriggers : triggerIssues (ns ++ [Named.mk (.text name) v]) = triggerIssues ns := by
    rw [triggerIssues, triggerKeys_concat hv.plain.1, triggerIssues]
  have hends : danglingIssues ((ns ++ [Named.mk (.text name) v]).map (·.key)) [] (references c) =
      danglingIssues (ns.map (·.key)) [] (references c) := by
    rw [List.map_append]
    exact danglingIssues_concat fun ref href => hv.end_ne h.load href
  have hparameters : (ns ++ [Named.mk (.text name) v]).flatMap parameterIssues = ns.flatMap parameterIssues := by
    rw [List.flatMap_append]
    simp [parameterIssues, hv.complete]
  refine ⟨schemaIssues document ++ (triggerIssues ns ++ nameIssues ns ++
    danglingIssues (ns.map (·.key)) [] (references c) ++ incomingIssues g (triggerKeys ns) ++
    disconnectedIssues g (triggerKeys ns) ns), switches.flatten ++ outgoing.flatten ++ ns.flatMap parameterIssues, ?_, ?_⟩
  · simp only [h.issues, List.append_assoc]
  · rw [h'.issues, Document.schemaIssues_withNode hn hv.shape, htriggers, triggerKeys_concat hv.plain.1,
      nameIssues_concat (hv.key_fresh h), hends, hincoming, hdisconnected, hports,
      hv.outgoing_eq h h' hreached hunreached, hparameters]
    simp only [List.append_assoc, List.cons_append, List.nil_append]

end

/-- **One node more, one error more.** A node that stands aside changes nothing that is reported about a document, and
is itself reported once. -/
theorem validate_withNode {r r' : Report} (hn : Document.nodesOf (Value.field "nodes" document) ≠ [])
    (hv : Aside cfg document v name) (h : validate cfg (.object document) = .ok r)
    (h' : validate cfg (.object (Document.withNode document v)) = .ok r') :
    ∃ before after, r.issues = before ++ after ∧
      r'.issues = before ++
        ⟨.error, .disconnected, "Node '" ++ name ++ "' has no incoming connection", true, .text name⟩ :: after := by
  obtain ⟨items, hitems⟩ := Document.list_of_nodesOf hn
  have hfield : Value.field "nodes" document = .list items := by rw [Value.field, hitems, Option.getD_some]
  have hnodes := Document.nodesOf_withNode document v
  obtain ⟨_, _, c, _, _, hexamined⟩ := examined_of_validate h hn
  have hload := hexamined.load
  obtain ⟨ns, g, switches, outgoing, he, hns, -, hreached⟩ :=
    examined_reached h (Document.nodes_of_list hfield) hload hn
  obtain ⟨ns', g', switches', outgoing', he', hns', -, hreached'⟩ :=
    examined_reached h' (Document.nodes_of_list (Document.field_nodes_withNode document v))
      (by rw [Document.connections_withNode, hload]) (by simp [hnodes])
  rw [hns] at hreached
  rw [hns', hnodes] at hreached'
  obtain rfl := named_concat hv.named he.nodes (hnodes ▸ he'.nodes)
  refine hv.issues he he' (hv.isReached_eq hload hreached hreached') ?_ hn
  rw [← Bool.not_eq_true, hreached]
  exact fun hname => hv.fresh hname.1

end

/-- a node as a document has it, at a place of the first column -/
def standing (id name type : String) (y : Int) : Node :=
  ⟨[(.text "id", .text id), (.text "name", .text name), (.text "type", .text type),
    (.text "position", .list [.int 0, .int y]), (.text "parameters", .object [])]⟩

/-- a start that leads to no node, a request without its address that nothing leads to, and no node at all -/
def brokenDocument : Fields :=
  [(.text "nodes", .list [
      (standing "1" "Start" "n8n-nodes-base.manualTrigger" 0).toValue,
      (standing "2" "Fetch" "n8n-nodes-base.httpRequest" 0).toValue, .null]),
    (.text "connections", .object [
      (.text "Start", .object [(.text "main", .list [.list [(Edge.plain "Ghost" "main" 0).toValue]])])])]

def farNode : Node := standing "3" "Note" "n8n-nodes-base.noOp" 1000

theorem aside_farNode : Aside .standard brokenDocument farNode "Note" where
  shape := by rfl
  plain := by decide +kernel
  complete := by rfl
  named := by rfl
  fresh := by decide +kernel
  unlinked := by
    have hends : ((Connections.normalize (Value.field "connections" brokenDocument)).toOption.all fun c =>
        decide ((∀ k ∈ c.sources, k ≠ .text "Note") ∧ "Note" ∉ c.targets)) = true := by decide +kernel
    intro c hc
    rw [hc] at hends
    obtain ⟨hsources, htargets⟩ := of_decide_eq_true hends
    exact ⟨fun hmem => hsources _ hmem rfl, htargets⟩
  apart := by
    have hrows : (Document.nodesOf (Value.field "nodes" brokenDocument)).all (fun n =>
        !Rows.onRow (.whole BuildConfig.standard.rowTolerance) n farNode &&
          !Rows.onRow (.whole BuildConfig.standard.rowTolerance) farNode n) = true := by decide +kernel
    intro n hn
    simpa using List.all_eq_true.1 hrows n hn

theorem validate_withNode_brokenDocument :
    Document.nodesOf (Value.field "nodes" brokenDocument) ≠ [] ∧ Aside .standard brokenDocument farNode "Note" ∧
      ∃ r r', validate .standard (.object brokenDocument) = .ok r ∧
        validate .standard (.object (Document.withNode brokenDocument farNode)) = .ok r' ∧
        ∃ before after, r.issues = before ++ after ∧
          r'.issues = before ++
            ⟨.error, .disconnected, "Node '" ++ "Note" ++ "' has no incoming connection", true, .text "Note"⟩ ::
              after := by
  have hne : Document.nodesOf (Value.field "nodes" brokenDocument) ≠ [] := List.cons_ne_nil _ _
  obtain ⟨r, hr⟩ := succeeds_iff_isSome.2
    (by decide +kernel : (validate .standard (.object brokenDocument)).toOption.isSome = true)
  obtain ⟨r', hr'⟩ := succeeds_iff_isSome.2 (by decide +kernel :
    (validate .standard (.object (Document.withNode brokenDocument farNode))).toOption.isSome = true)
  exact ⟨hne, aside_farNode, r, r', hr, hr', validate_withNode hne aside_farNode hr hr'⟩

end Validation

end WorkflowGraph
