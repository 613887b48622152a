import WorkflowGraph.Proofs.Connections.Extension
import WorkflowGraph.Proofs.Document
import WorkflowGraph.Proofs.Repair.FirstStep
import WorkflowGraph.Proofs.Repair.Moves
/-
Repair is conservative. Nodes stay as they are and in their order, and only merge nodes come behind them, with names and
identifiers of their own. Ports keep their edges in their order, apart from edges into triggers, and new edges leave by
the first main port only. The other fields of the document are not touched.

- `moves_merges`, `moves_extends`: what a sequence of moves does to nodes and to ports.
- `repair_conserves`: the statement for every document with a list of nodes.
-/
namespace WorkflowGraph

namespace Repair

/-- the identifier of a node as a text -/
def idText (n : Node) : String := (n.get "id").toText

/-! ## Nodes -/

/-- nodes that join branches, with names and identifiers that nothing else has -/
structure Merges (nodes added : List Node) : Prop where
  type : ∀ n ∈ added, n.get "type" = .text "n8n-nodes-base.merge"
  named : ∀ n ∈ added, ∃ s, n.name = .text s ∧ Text.isBlankText s = false
  distinct : (added.map Node.name).Nodup
  newNames : ∀ n ∈ added, ∀ m ∈ nodes, m.name ≠ n.name
  distinctIds : (added.map idText).Nodup
  newIds : ∀ n ∈ added, ∀ m ∈ nodes, idText m ≠ idText n

theorem merges_nil (nodes : List Node) : Merges nodes [] where
  type := by simp
  named := by simp
  distinct := List.nodup_nil
  newNames := by simp
  distinctIds := List.nodup_nil
  newIds := by simp

/-- one more node behind the others -/
theorem Merges.snoc {nodes added : List Node} (h : Merges nodes added) {n : Node}
    (htype : n.get "type" = .text "n8n-nodes-base.merge") (hnamed : ∃ s, n.name = .text s ∧ Text.isBlankText s = false)
    (hname : ∀ m ∈ nodes ++ added, m.name ≠ n.name) (hid : ∀ m ∈ nodes ++ added, idText m ≠ idText n) :
    Merges nodes (added ++ [n]) := by
  rw [List.forall_mem_append] at hname hid
  have forall_snoc : ∀ {P : Node → Prop}, (∀ m ∈ added, P m) → P n → ∀ m ∈ added ++ [n], P m := by
    intro P hadded hn
    exact List.forall_mem_append.2 ⟨hadded, List.forall_mem_singleton.2 hn⟩
  exact {
    type := forall_snoc h.type htype
    named := forall_snoc h.named hnamed
    distinct := nodup_map_snoc h.distinct hname.2
    newNames := forall_snoc h.newNames hname.1
    distinctIds := nodup_map_snoc h.distinctIds hid.2
    newIds := forall_snoc h.newIds hid.1 }

/-- the identifier that is handed out is none of those in use -/
theorem nextId_not_mem (nodes : List Node) : nextId nodes ∉ nodes.map idText :=
  leastFree_not_mem toString_injective _

theorem idText_mergeNode (id name : String) (x y : Double) : idText (mergeNode id name x y) = id := rfl

/-- moves add nothing but merge nodes -/
theorem moves_merges {s t : State} (h : Relation.ReflTransGen Move s t) :
    ∃ added, t.nodes = s.nodes ++ added ∧ Merges s.nodes added := by
  induction h with
  | refl => exact ⟨[], (List.append_nil _).symm, merges_nil _⟩
  | @tail u t _ hmove ih =>
    obtain ⟨added, hnodes, hmerges⟩ := ih
    cases hmove with
    | noted rule detail hrule => exact ⟨added, hnodes, hmerges⟩
    | merged name x y ends detail hnew hname hends hknown =>
      have hid := nextId_not_mem u.nodes
      rw [hnodes] at hnew
      refine ⟨added ++ [mergeNode (nextId u.nodes) name x y], ?_, ?_⟩
      · rw [← List.append_assoc, ← hnodes]
        rfl
      · refine hmerges.snoc rfl ⟨name, rfl, hname⟩ hnew fun m hm heq => hid ?_
        rw [idText_mergeNode] at heq
        exact heq ▸ List.mem_map_of_mem (hnodes ▸ hm)
    | connected source target key rule detail hsource hkey htarget hopen hrule => exact ⟨added, hnodes, hmerges⟩

/-! ## Ports -/

theorem extends_joinEnds {kept : Edge → Bool} {c d : Connections} (h : c.Extends kept d) (merge : String) (i : Nat)
    (ends : List String) : c.Extends kept (joinEnds d merge i ends) := by
  induction ends generalizing d i with
  | nil => exact h
  | cons e ends ih => exact ih (h.connect _ _ _) _

/-- moves extend the connections -/
theorem moves_extends {kept : Edge → Bool} {c : Connections} {s t : State} (h : Relation.ReflTransGen Move s t)
    (hs : c.Extends kept s.connections) : c.Extends kept t.connections := by
  induction h with
  | refl => exact hs
  | tail _ hmove ih =>
    cases hmove with
    | noted rule detail hrule => exact ih
    | merged name x y ends detail hnew hname hends hknown => exact extends_joinEnds ih name 0 ends
    | connected source target key rule detail hsource hkey htarget hopen hrule => exact ih.connect _ _ _

/-! ## The document -/

/-- a document with the nodes and connections of a state -/
def written (fields : Fields) (s : State) : Fields :=
  Table.put (.text "connections") s.connections.toValue
    (Table.put (.text "nodes") (.list (s.nodes.map Node.toValue)) fields)

theorem get?_connections_written (fields : Fields) (s : State) :
    Table.get? (.text "connections") (written fields s) = some s.connections.toValue := by
  rw [written, Table.get?_put]
  simp

theorem get?_nodes_written (fields : Fields) (s : State) :
    Table.get? (.text "nodes") (written fields s) = some (.list (s.nodes.map Node.toValue)) := by
  have hkeys : (Key.text "connections" == Key.text "nodes") = false := by decide
  rw [written, Table.get?_put, hkeys, Table.get?_put]
  simp

theorem holds_written (fields : Fields) (s : State) : Document.Holds (written fields s) s.nodes s.connections :=
  ⟨get?_nodes_written fields s, get?_connections_written fields s⟩

theorem get?_written (fields : Fields) (s : State) {k : Key} (hn : (Key.text "nodes" == k) = false)
    (hc : (Key.text "connections" == k) = false) : Table.get? k (written fields s) = Table.get? k fields := by
  rw [written, Table.get?_put, hc, Table.get?_put, hn]
  rfl

/-- what a repair hands back: what its steps made of the document, or the document itself when they failed -/
theorem repair_eq_ok {cfg : BuildConfig} {fields : Fields} {items : List Value} {r : Repaired}
    (h : repair cfg (.object fields) = .ok r) (hn : Value.field "nodes" fields = .list items) :
    ∃ start, canonicalize fields (items.filterMap Node.ofValue?) = .ok start ∧
      ((∃ s, mend cfg start = .ok s ∧ r = ⟨.object (written fields s), s.fixes, s.trace⟩) ∨
        ∃ kind, mend cfg start = .error (.notScalar kind) ∧
          r = ⟨.object fields, 0,
            start.trace ++ decided "aborted" [("error", .text (Fault.notScalar kind).message)]⟩) := by
  simp only [repair, hn] at h
  obtain ⟨start, hstart, h⟩ := bind_eq_ok.1 h
  refine ⟨start, hstart, ?_⟩
  split at h
  · rename_i s hs
    cases h
    exact Or.inl ⟨s, hs, rfl⟩
  · rename_i kind hk
    cases h
    exact Or.inr ⟨kind, hk, rfl⟩
  · cases h

end Repair

/-- the repair was not given up -/
def Repaired.Completed (r : Repaired) : Prop := r.trace.Unaborted

namespace Repair

/-- the rules for all steps -/
def rules : List String :=
  firstRules ++
    ["switch-merged", "switch-left-alone", "disconnected-unresolved", "disconnected-connected", "output-chained"]

/-- the steps after the first one decide under the rules -/
theorem under_mend {cfg : BuildConfig} {s t : State} (h : mend cfg s = .ok t) (hs : s.trace.Under rules) :
    t.trace.Under rules := by
  obtain ⟨u, hu, h⟩ := bind_eq_ok.1 h
  obtain ⟨v, hv, h⟩ := bind_eq_ok.1 h
  have hjoined : u.trace.Under rules := by
    refine reconvergeAll_induction (P := fun s => s.trace.Under rules) hu hs ?_
    intro s registry sw _ t registry' _ hrec hs
    obtain ⟨source, -, hcase⟩ := reconverges_of_eq_ok hrec
    cases hcase with
    | alone detail hfew => exact hs.append (Trace.under_event (by decide))
    | joined first others origin place right spacing detail hends hmany horigin hright hspacing hplace =>
      exact hs.append (Trace.under_event (by decide))
  have hconnected : v.trace.Under rules := by
    refine connectAll_induction (P := fun s => s.trace.Under rules) hv hjoined ?_
    intro s n _ t hconnect hs
    cases connects_of_eq_ok hconnect with
    | fed hfed => exact hs
    | unresolved hnone detail => exact hs.append (Trace.under_event (by decide))
    | connected left key hopen htarget hleft hkey detail => exact hs.append (Trace.under_event (by decide))
  refine foldlM_induction (P := fun s : State => s.trace.Under rules) h hconnected ?_
  intro s n t _ hchain hs
  obtain ⟨key, -, hcase⟩ := chains_of_eq_ok hchain
  cases hcase with
  | led hled => exact hs
  | unresolved hnone => exact hs
  | chained right hclosed hout hright detail => exact hs.append (Trace.under_event (by decide))

/-- what is decided before a repair gives up, or until it is done, is decided under the rules -/
theorem under_mended {cfg : BuildConfig} {document : Fields} {nodes : List Node} {start s : State}
    (hstart : canonicalize document nodes = .ok start) (hs : mend cfg start = .ok s) : s.trace.Under rules :=
  under_mend hs ((under_canonicalize hstart).mono (List.subset_append_left _ _))

/-- a repair is given up exactly when its later steps fail -/
theorem completed_iff {cfg : BuildConfig} {fields : Fields} {items : List Value} {r : Repaired}
    (h : repair cfg (.object fields) = .ok r) (hn : Value.field "nodes" fields = .list items) :
    r.Completed ↔ ∃ start s, canonicalize fields (items.filterMap Node.ofValue?) = .ok start ∧
      mend cfg start = .ok s := by
  obtain ⟨start, hstart, ⟨s, hs, rfl⟩ | ⟨kind, hk, rfl⟩⟩ := repair_eq_ok h hn
  · constructor
    · exact fun _ => ⟨start, s, hstart, hs⟩
    · exact fun _ e he heq => absurd (heq ▸ under_mended hstart hs e he) (by decide)
  · constructor
    · exact fun hdone => absurd rfl (hdone (Event.of "repair" "aborted" _) (List.mem_append_right _ List.mem_cons_self))
    · rintro ⟨start', s, hstart', hs⟩
      cases hstart.symm.trans hstart'
      cases hk.symm.trans hs

/-- the document before and after a repair: `added` are the new nodes, `c` and `d` the connections before and after -/
structure Conserved (before : Fields) (items : List Value) (c : Connections) (after : Fields) (added : List Node)
    (d : Connections) : Prop where
  nodes : Table.get? (.text "nodes") after = some (.list (items.filter Value.isObject ++ added.map Node.toValue))
  merges : Merges (items.filterMap Node.ofValue?) added
  connections : Table.get? (.text "connections") after = some d.toValue
  ports : c.Extends (sparesTriggers (items.filterMap Node.ofValue?)) d
  others : ∀ k, (Key.text "nodes" == k) = false → (Key.text "connections" == k) = false →
    Table.get? k after = Table.get? k before

theorem map_toValue_ofValue? (items : List Value) :
    (items.filterMap Node.ofValue?).map Node.toValue = items.filter Value.isObject := by
  induction items with
  | nil => rfl
  | cons v items ih =>
    cases v with
    | object fields => exact congrArg (Value.object fields :: ·) ih
    | _ => exact ih

/-- **Repair is conservative.** A repair that is not given up keeps nodes, ports and other fields, and what it adds are
merge nodes and edges on first main ports. -/
theorem repair_conserves {cfg : BuildConfig} {fields : Fields} {items : List Value} {r : Repaired}
    (h : repair cfg (.object fields) = .ok r) (hn : Value.field "nodes" fields = .list items) (hdone : r.Completed) :
    ∃ c after added d, Connections.load (Value.field "connections" fields) = .ok c ∧ r.document = .object after ∧
      Conserved fields items c after added d := by
  obtain ⟨start, hstart, ⟨s, hs, rfl⟩ | ⟨kind, -, rfl⟩⟩ := repair_eq_ok h hn
  · obtain ⟨c, hload, hnodes, hconnections, -⟩ := canonicalize_connections hstart
    have hmoves := mend_moves hs
    obtain ⟨added, hadded, hmerges⟩ := moves_merges hmoves
    rw [hnodes] at hadded hmerges
    refine ⟨c, written fields s, added, s.connections, hload, rfl, ?_, hmerges, get?_connections_written _ _, ?_, ?_⟩
    · rw [get?_nodes_written, hadded, List.map_append, map_toValue_ofValue?]
    · refine moves_extends hmoves ?_
      rw [hconnections]
      exact Connections.extends_filter _ _
    · exact fun k hk hk' => get?_written fields s hk hk'
  · exact absurd rfl (hdone (Event.of "repair" "aborted" _) (List.mem_append_right _ List.mem_cons_self))

/-- a start with an edge back to itself -/
def loopedStart : Node := ⟨[
  (.text "id", .text "1"), (.text "name", .text "Start"), (.text "type", .text "n8n-nodes-base.manualTrigger"),
  (.text "position", .list [.int 0, .int 0]), (.text "parameters", .object [])]⟩

def loopedDocument : Fields := [
  (.text "name", .text "Loop"), (.text "nodes", .list [loopedStart.toValue]),
  (.text "connections", (Connections.empty.connect (.text "Start") "Start" 0).toValue)]

theorem repair_conserves_loopedDocument :
    Value.field "nodes" loopedDocument = .list [loopedStart.toValue] ∧
      ∃ r, repair .standard (.object loopedDocument) = .ok r ∧ r.Completed ∧
        ∃ c after added d, Connections.load (Value.field "connections" loopedDocument) = .ok c ∧
          r.document = .object after ∧ Conserved loopedDocument [loopedStart.toValue] c after added d := by
  obtain ⟨r, hr, hdone⟩ := exists_ok_of_any (p := fun r => r.trace.all fun e => e.rule != "aborted")
    (by decide +kernel : ((repair .standard (.object loopedDocument)).toOption.any _) = true)
  have hcompleted : r.Completed := by simpa [Repaired.Completed, Trace.Unaborted] using hdone
  exact ⟨rfl, r, hr, hcompleted, repair_conserves hr rfl hcompleted⟩

end Repair

end WorkflowGraph
