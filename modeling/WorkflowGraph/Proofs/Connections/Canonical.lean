import WorkflowGraph.Connections.Normal
import WorkflowGraph.Proofs.Value
/-
Canonical connections: sources are texts, every source and every port type has one entry, and every edge can be read
back from a document. All operations that build connections keep them canonical.

- `Canonical.addEdge`, `Canonical.ensurePorts`, `Canonical.mapPorts`: operations keep the form.
- `Simple`: no port holds an edge twice; only a change of names can break it.
-/
namespace WorkflowGraph

namespace Connections

/-! ## Form -/

/-- sources are texts and occur once, and so do the port types of each -/
structure Keyed (c : Connections) : Prop where
  distinct : c.table.Distinct
  texts : ∀ x ∈ c.table, ∃ s, x.1 = .text s
  types : ∀ x ∈ c.table, Table.Distinct x.2

/-- every port is of a kind that may depend on its port type -/
def EachPort (P : String → Port → Prop) (c : Connections) : Prop :=
  ∀ x ∈ c.table, ∀ y ∈ x.2, ∀ p ∈ y.2, P y.1 p

/-- an edge that a document can give: its target is not blank, and it has no type only where its port has none -/
def ReadableEdge (portType : String) (e : Edge) : Prop :=
  Text.isBlankText e.node = false ∧ (e.type = "" → portType = "")

def Readable (portType : String) (p : Port) : Prop := ∀ e ∈ p, ReadableEdge portType e

/-- connections that stand in a document as they are: no source is without port types, and every edge can be read -/
structure Canonical (c : Connections) : Prop extends Keyed c where
  filled : ∀ x ∈ c.table, x.2 ≠ []
  readable : EachPort Readable c

/-- no port holds an edge twice -/
def Simple (c : Connections) : Prop := EachPort (fun _ p => p.Nodup) c

theorem canonical_empty : Canonical .empty where
  distinct := Table.distinct_nil
  texts := by simp [empty]
  filled := by simp [empty]
  types := by simp [empty]
  readable := by simp [EachPort, empty]

theorem EachPort.imp {P Q : String → Port → Prop} {c : Connections} (h : EachPort P c)
    (hPQ : ∀ portType p, P portType p → Q portType p) : EachPort Q c :=
  fun x hx y hy p hp => hPQ _ _ (h x hx y hy p hp)

/-! ## Changing the ports of one type of a source -/

theorem Keyed.modifyPorts {c : Connections} (h : Keyed c) (s portType : String) (f : List Port → List Port) :
    Keyed (c.modifyPorts (.text s) portType f) where
  distinct := Table.distinct_modify h.distinct
  texts := Table.forall_modify (P := fun (k : Key) (_ : PortTable) => ∃ s, k = .text s) h.texts ⟨s, rfl⟩
    fun _ _ _ hk => hk
  types := Table.forall_modify (P := fun (_ : Key) (t : PortTable) => Table.Distinct t) h.types
    (Table.distinct_modify Table.distinct_nil) fun _ _ _ ht => Table.distinct_modify ht

theorem EachPort.modifyPorts {P : String → Port → Prop} {c : Connections} (h : EachPort P c) (source : Key)
    {portType : String} {f : List Port → List Port}
    (hf : ∀ ports, (∀ p ∈ ports, P portType p) → ∀ p ∈ f ports, P portType p) :
    EachPort P (c.modifyPorts source portType f) := by
  have inner : ∀ t : PortTable, (∀ y ∈ t, ∀ p ∈ y.2, P y.1 p) →
      ∀ y ∈ Table.modify portType (fun ports => f (ports.getD [])) t, ∀ p ∈ y.2, P y.1 p := by
    intro t ht
    refine Table.forall_modify (P := fun pt (ports : List Port) => ∀ p ∈ ports, P pt p) ht (hf [] (by simp)) ?_
    intro pt ports hpt hports
    obtain rfl : pt = portType := by simpa using hpt
    exact hf ports hports
  exact Table.forall_modify (P := fun (_ : Key) (t : PortTable) => ∀ y ∈ t, ∀ p ∈ y.2, P y.1 p) h
    (inner [] (by simp)) fun _ t _ ht => inner t ht

theorem mapPorts_table (c : Connections) (f : Port → Port) :
    (c.mapPorts f).table = c.table.map fun e => (e.1, e.2.map fun y => (y.1, y.2.map f)) := rfl

theorem Keyed.mapPorts {c : Connections} (h : Keyed c) (f : Port → Port) : Keyed (c.mapPorts f) where
  distinct := by
    rw [mapPorts_table]
    exact Table.distinct_map (fun e => e.2.map fun y => (y.1, y.2.map f)) h.distinct
  texts := by
    intro x hx
    obtain ⟨a, ha, rfl⟩ := List.mem_map.1 hx
    exact h.texts a ha
  types := by
    intro x hx
    obtain ⟨a, ha, rfl⟩ := List.mem_map.1 hx
    exact Table.distinct_map (fun e => e.2.map f) (h.types a ha)

theorem EachPort.mapPorts {P Q : String → Port → Prop} {c : Connections} (h : EachPort P c) {f : Port → Port}
    (hf : ∀ portType p, P portType p → Q portType (f p)) : EachPort Q (c.mapPorts f) := by
  intro x hx y hy p hp
  obtain ⟨a, ha, rfl⟩ := List.mem_map.1 hx
  obtain ⟨b, hb, rfl⟩ := List.mem_map.1 hy
  obtain ⟨q, hq, rfl⟩ := List.mem_map.1 hp
  exact hf _ _ (h a ha b hb q hq)

/-- a change that changes no port leaves the connections as they are -/
theorem mapPorts_eq_self {c : Connections} {f : Port → Port} (h : EachPort (fun _ p => f p = p) c) :
    c.mapPorts f = c := by
  have inner : ∀ x ∈ c.table, (x.1, x.2.map fun y => (y.1, y.2.map f)) = x := by
    intro x hx
    have ports : ∀ y ∈ x.2, (y.1, y.2.map f) = y := by
      intro y hy
      rw [List.map_congr_left (h x hx y hy), List.map_id']
    rw [List.map_congr_left ports, List.map_id']
  have table : (c.mapPorts f).table = c.table := by rw [mapPorts_table, List.map_congr_left inner, List.map_id']
  exact congrArg Connections.mk table

theorem mapPorts_mapPorts (c : Connections) (f g : Port → Port) :
    (c.mapPorts f).mapPorts g = c.mapPorts fun p => g (f p) := by
  simp [mapPorts, Function.comp_def]

/-! ## Edges -/

theorem mem_pad {count : Nat} {ports : List Port} {p : Port} (h : p ∈ pad count ports) : p ∈ ports ∨ p = [] := by
  unfold pad at h
  rcases List.mem_append.1 h with h | h
  · exact Or.inl h
  · exact Or.inr (List.eq_of_mem_replicate h)

theorem mem_modify_insertEdge {e : Edge} {i : Nat} {ports : List Port} {p : Port}
    (h : p ∈ ports.modify i (insertEdge e)) : p ∈ ports ∨ ∃ q ∈ ports, p = insertEdge e q := by
  obtain ⟨j, hj⟩ := List.mem_iff_getElem?.1 h
  rw [List.getElem?_modify] at hj
  obtain ⟨q, hq, hp⟩ := Option.map_eq_some_iff.1 hj
  split at hp
  · exact Or.inr ⟨q, List.mem_of_getElem? hq, hp.symm⟩
  · exact Or.inl (hp ▸ List.mem_of_getElem? hq)

/-- what holds of some ports and of an empty one, and stays when an edge is added, holds of the ports with the edge -/
theorem forall_added {P : Port → Prop} {ports : List Port} {port : Nat} {e : Edge} (h : ∀ p ∈ ports, P p)
    (hnil : P []) (he : ∀ p, P p → P (insertEdge e p)) :
    ∀ p ∈ (pad (port + 1) ports).modify port (insertEdge e), P p := by
  have hpad : ∀ q ∈ pad (port + 1) ports, P q := by
    intro q hq
    rcases mem_pad hq with hq | rfl
    · exact h q hq
    · exact hnil
  intro p hp
  rcases mem_modify_insertEdge hp with hp | ⟨q, hq, rfl⟩
  · exact hpad p hp
  · exact he q (hpad q hq)

theorem readable_nil (portType : String) : Readable portType [] := by simp [Readable]

theorem Readable.insertEdge {portType : String} {p : Port} {e : Edge} (h : Readable portType p)
    (he : ReadableEdge portType e) : Readable portType (insertEdge e p) := by
  intro e' he'
  rcases (mem_insertEdge e e' p).1 he' with rfl | hmem
  · exact he
  · exact h e' hmem

theorem nodup_insertEdge {p : Port} (h : p.Nodup) (e : Edge) : (insertEdge e p).Nodup := by
  unfold insertEdge
  split
  · exact h
  · rename_i hne
    exact List.nodup_append.2 ⟨h, List.nodup_singleton e, by rintro a ha b hb rfl; simp_all⟩

/-- the edges of a port and of another one, each once -/
theorem mem_foldl_insertEdge {p q : Port} {e : Edge} :
    e ∈ p.foldl (fun q e => insertEdge e q) q ↔ e ∈ q ∨ e ∈ p := by
  induction p generalizing q with
  | nil => simp
  | cons e' rest ih =>
    rw [List.foldl_cons, ih, mem_insertEdge, List.mem_cons, or_assoc, or_left_comm]

theorem readable_foldl_insertEdge {portType : String} {p q : Port} (hp : Readable portType p)
    (hq : Readable portType q) : Readable portType (p.foldl (fun q e => insertEdge e q) q) := by
  intro e he
  rcases mem_foldl_insertEdge.1 he with he | he
  · exact hq e he
  · exact hp e he

theorem nodup_foldl_insertEdge (p : Port) {q : Port} (hq : q.Nodup) :
    (p.foldl (fun q e => insertEdge e q) q).Nodup := by
  induction p generalizing q with
  | nil => exact hq
  | cons e rest ih => exact ih (nodup_insertEdge hq e)

/-! ## Operations on canonical connections -/

theorem Canonical.modifyPorts {c : Connections} (h : Canonical c) (s : String) {portType : String}
    {f : List Port → List Port}
    (hf : ∀ ports, (∀ p ∈ ports, Readable portType p) → ∀ p ∈ f ports, Readable portType p) :
    Canonical (c.modifyPorts (.text s) portType f) where
  toKeyed := h.toKeyed.modifyPorts s portType f
  filled := Table.forall_modify (P := fun (_ : Key) (t : PortTable) => t ≠ []) h.filled (Table.modify_ne_nil _ _ _)
    fun _ _ _ _ => Table.modify_ne_nil _ _ _
  readable := h.readable.modifyPorts (.text s) hf

theorem Canonical.mapPorts {c : Connections} (h : Canonical c) {f : Port → Port}
    (hf : ∀ portType p, Readable portType p → Readable portType (f p)) : Canonical (c.mapPorts f) where
  toKeyed := h.toKeyed.mapPorts f
  filled := by
    intro x hx
    obtain ⟨a, ha, rfl⟩ := List.mem_map.1 hx
    simpa using h.filled a ha
  readable := h.readable.mapPorts hf

theorem Canonical.addEdge {c : Connections} (h : Canonical c) (s : String) {portType : String} (port : Nat) {e : Edge}
    (he : ReadableEdge portType e) : Canonical (c.addEdge (.text s) portType port e) :=
  h.modifyPorts s fun _ hports => forall_added hports (readable_nil portType) fun _ hp => hp.insertEdge he

theorem Canonical.ensurePorts {c : Connections} (h : Canonical c) (s portType : String) (count : Nat) :
    Canonical (c.ensurePorts (.text s) portType count) := by
  refine h.modifyPorts s fun ports hports p hp => ?_
  rcases mem_pad hp with hp | rfl
  · exact hports p hp
  · exact readable_nil portType

/-- an edge of the type of its port, to a target that is not blank -/
theorem readableEdge_plain {target : String} (h : Text.isBlankText target = false) (portType : String) (index : Nat) :
    ReadableEdge portType (.plain target portType index) := ⟨h, id⟩

theorem Canonical.connect {c : Connections} (h : Canonical c) (s : String) {target : String}
    (ht : Text.isBlankText target = false) (index : Nat) : Canonical (c.connect (.text s) target index) :=
  h.addEdge s 0 (readableEdge_plain ht mainType index)

theorem Canonical.removeEdgesTo {c : Connections} (h : Canonical c) (target : String) :
    Canonical (c.removeEdgesTo target) :=
  h.mapPorts fun _ _ hp e he => hp e (List.mem_of_mem_filter he)

theorem Simple.addEdge {c : Connections} (h : Simple c) (source : Key) (portType : String) (port : Nat) (e : Edge) :
    Simple (c.addEdge source portType port e) :=
  EachPort.modifyPorts h source fun _ hports => forall_added hports List.nodup_nil fun _ hp => nodup_insertEdge hp e

theorem Simple.ensurePorts {c : Connections} (h : Simple c) (source : Key) (portType : String) (count : Nat) :
    Simple (c.ensurePorts source portType count) := by
  refine EachPort.modifyPorts h source fun ports hports p hp => ?_
  rcases mem_pad hp with hp | rfl
  · exact hports p hp
  · exact List.nodup_nil

theorem Simple.connect {c : Connections} (h : Simple c) (source : Key) (target : String) (index : Nat) :
    Simple (c.connect source target index) :=
  h.addEdge source mainType 0 _

end Connections

end WorkflowGraph
