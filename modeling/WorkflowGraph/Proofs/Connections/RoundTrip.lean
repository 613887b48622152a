import WorkflowGraph.Proofs.Connections.Canonical
/-
Building connections anew, edge by edge, as reading does with a normal form.

- `rebuild_eq`: building a normal form anew drops sources without port types and repeated edges, nothing else.
-/
namespace WorkflowGraph

namespace Connections

/-! ## Every edge once -/

/-- the edges of a port without repetitions, each at its first place -/
def once (p : Port) : Port := p.foldl (fun q e => insertEdge e q) []

theorem mem_once {p : Port} {e : Edge} : e ∈ once p ↔ e ∈ p := by
  rw [once, mem_foldl_insertEdge]
  simp

theorem nodup_once (p : Port) : (once p).Nodup := nodup_foldl_insertEdge p List.nodup_nil

theorem once_eq_self {p : Port} (h : p.Nodup) : once p = p := by
  have append : ∀ (p q : Port), (q ++ p).Nodup → p.foldl (fun q e => insertEdge e q) q = q ++ p := by
    intro p
    induction p with
    | nil => intro q _; simp
    | cons e rest ih =>
      intro q hq
      have hne : e ∉ q := fun hm => (List.nodup_append.1 hq).2.2 e hm e List.mem_cons_self rfl
      have hins : insertEdge e q = q ++ [e] := if_neg hne
      rw [List.foldl_cons, hins, ih (q ++ [e]) (by simpa using hq)]
      simp
  exact append p [] h

theorem mapPorts_once {c : Connections} (h : Simple c) : c.mapPorts once = c :=
  mapPorts_eq_self (h.imp fun _ _ hp => once_eq_self hp)

/-! ## Building a normal form anew -/

theorem modifyPorts_modifyPorts (c : Connections) (source : Key) (portType : String) (f g : List Port → List Port) :
    (c.modifyPorts source portType g).modifyPorts source portType f = c.modifyPorts source portType (f ∘ g) := by
  simp [modifyPorts, Table.modify_modify]

/-- one more edge on a list of ports -/
def addTo (ports : List Port) (x : Nat × Edge) : List Port := (pad (x.1 + 1) ports).modify x.1 (insertEdge x.2)

theorem foldl_addEdge (l : List (Nat × Edge)) (c : Connections) (source : Key) (portType : String)
    (f : List Port → List Port) :
    l.foldl (fun c x => c.addEdge source portType x.1 x.2) (c.modifyPorts source portType f) =
      c.modifyPorts source portType fun ports => l.foldl addTo (f ports) := by
  induction l generalizing f with
  | nil => rfl
  | cons x l ih =>
    rw [List.foldl_cons, addEdge, modifyPorts_modifyPorts, ih]
    rfl

theorem addTo_append (done later : List Port) (q : Port) (e : Edge) :
    addTo (done ++ q :: later) (done.length, e) = done ++ insertEdge e q :: later := by
  have hpad : pad (done.length + 1) (done ++ q :: later) = done ++ q :: later := by
    have hlen : done.length + 1 - (done ++ q :: later).length = 0 := by simp
    rw [pad, hlen]
    simp
  rw [addTo, hpad]
  refine List.ext_getElem? fun i => ?_
  rw [List.getElem?_modify]
  rcases Nat.lt_trichotomy i done.length with h | h | h
  · simp [List.getElem?_append_left h, Nat.ne_of_gt h]
  · subst h
    simp
  · rw [List.getElem?_append_right (Nat.le_of_lt h), List.getElem?_append_right (Nat.le_of_lt h)]
    obtain ⟨j, hj⟩ : ∃ j, i - done.length = j + 1 := ⟨i - done.length - 1, by omega⟩
    simp [hj, Nat.ne_of_lt h]

theorem foldl_addTo_port (done later : List Port) (p q : Port) :
    (p.map (done.length, ·)).foldl addTo (done ++ q :: later) =
      done ++ p.foldl (fun q e => insertEdge e q) q :: later := by
  induction p generalizing q with
  | nil => rfl
  | cons e rest ih => rw [List.map_cons, List.foldl_cons, addTo_append, ih, List.foldl_cons]

/-- numbered edges put back on empty ports give the ports they were numbered from, every edge once -/
theorem foldl_addTo_numbered (done ports : List Port) :
    (numbered done.length ports).foldl addTo (done ++ List.replicate ports.length []) = done ++ ports.map once := by
  induction ports generalizing done with
  | nil => rfl
  | cons p ports ih =>
    rw [numbered, List.foldl_append, List.length_cons, List.replicate_succ, foldl_addTo_port]
    have hlen : done.length + 1 = (done ++ [once p]).length := by simp
    have hsplit : done ++ p.foldl (fun q e => insertEdge e q) [] :: List.replicate ports.length [] =
        (done ++ [once p]) ++ List.replicate ports.length [] := by simp [once]
    rw [hlen, hsplit, ih]
    simp

/-- the ports of one type of a source built anew -/
def addPorts (source : Key) (c : Connections) (y : String × List Port) : Connections :=
  (numbered 0 y.2).foldl (fun c x => c.addEdge source y.1 x.1 x.2) (c.ensurePorts source y.1 y.2.length)

/-- all ports of a source built anew -/
def addSource (c : Connections) (x : Key × PortTable) : Connections := x.2.foldl (addPorts x.1) c

theorem rebuild_eq_foldl (n : Connections) : rebuild n = n.table.foldl addSource .empty := rfl

theorem addPorts_eq (source : Key) (c : Connections) (y : String × List Port) :
    addPorts source c y = c.modifyPorts source y.1 fun ports => (numbered 0 y.2).foldl addTo (pad y.2.length ports) :=
  foldl_addEdge _ _ _ _ _

theorem numbered_on_empty (ports : List Port) : (numbered 0 ports).foldl addTo (pad ports.length []) = ports.map once :=
  foldl_addTo_numbered [] ports

/-- the first port type of a new source -/
theorem addPorts_new {t : Table Key PortTable} {source : Key} (h : t.has source = false) (y : String × List Port) :
    addPorts source ⟨t⟩ y = ⟨t ++ [(source, [(y.1, y.2.map once)])]⟩ := by
  rw [addPorts_eq, modifyPorts, Table.modify_of_not_has h]
  simp [Table.modify, numbered_on_empty]

/-- a new port type of the last source -/
theorem addPorts_last {t : Table Key PortTable} {source : Key} {done : PortTable} (h : t.has source = false)
    {y : String × List Port} (hy : Table.has y.1 done = false) :
    addPorts source ⟨t ++ [(source, done)]⟩ y = ⟨t ++ [(source, done ++ [(y.1, y.2.map once)])]⟩ := by
  rw [addPorts_eq, modifyPorts, Table.modify_append_last h]
  simp [Table.modify_of_not_has hy, numbered_on_empty]

theorem foldl_addPorts_last {t : Table Key PortTable} {source : Key} (h : t.has source = false)
    (done later : PortTable) (hd : Table.Distinct (done ++ later)) :
    later.foldl (addPorts source) ⟨t ++ [(source, done)]⟩ =
      ⟨t ++ [(source, done ++ later.map fun y => (y.1, y.2.map once))]⟩ := by
  induction later generalizing done with
  | nil => simp
  | cons y later ih =>
    have hnext : Table.Distinct ((done ++ [(y.1, y.2.map once)]) ++ later) := hd.of_keys (by simp [Table.keys])
    rw [List.foldl_cons, addPorts_last h hd.not_has, ih _ hnext]
    simp

theorem addSource_new {t : Table Key PortTable} {x : Key × PortTable} (h : t.has x.1 = false)
    (hx : Table.Distinct x.2) :
    addSource ⟨t⟩ x = if x.2.isEmpty then ⟨t⟩ else ⟨t ++ [(x.1, x.2.map fun y => (y.1, y.2.map once))]⟩ := by
  obtain ⟨source, types⟩ := x
  cases types with
  | nil => rfl
  | cons y later =>
    have hnext : Table.Distinct ([(y.1, y.2.map once)] ++ later) := hx.of_keys (by simp [Table.keys])
    rw [addSource, List.foldl_cons, addPorts_new h, foldl_addPorts_last h _ _ hnext]
    simp

/-- the connections without the sources that have no port types -/
def opened (c : Connections) : Connections := ⟨c.table.filter fun x => !x.2.isEmpty⟩

theorem foldl_addSource (done later : Table Key PortTable) (hd : Table.Distinct (done ++ later))
    (ht : ∀ x ∈ later, Table.Distinct x.2) :
    later.foldl addSource ⟨done⟩ = ⟨done ++ ((opened ⟨later⟩).mapPorts once).table⟩ := by
  induction later generalizing done with
  | nil => simp [opened, mapPorts]
  | cons x later ih =>
    rw [List.forall_mem_cons] at ht
    rw [List.foldl_cons, addSource_new hd.not_has ht.1]
    cases hx : x.2.isEmpty
    · have hnext : Table.Distinct ((done ++ [(x.1, x.2.map fun y => (y.1, y.2.map once))]) ++ later) :=
        hd.of_keys (by simp [Table.keys])
      rw [if_neg (by simp), ih _ hnext ht.2]
      simp [opened, mapPorts_table, hx]
    · have hnext : Table.Distinct (done ++ later) :=
        List.Pairwise.sublist (List.Sublist.append_left (List.sublist_cons_self x later) done) hd
      rw [if_pos rfl, ih _ hnext ht.2]
      simp [opened, mapPorts_table, hx]

/-- building a normal form anew drops sources without port types and repeated edges, and nothing else -/
theorem rebuild_eq {n : Connections} (h : Keyed n) : rebuild n = (opened n).mapPorts once := by
  rw [rebuild_eq_foldl]
  exact foldl_addSource [] n.table h.distinct h.types

theorem opened_eq_self {c : Connections} (h : ∀ x ∈ c.table, x.2 ≠ []) : opened c = c := by
  have hall : ∀ x ∈ c.table, (!x.2.isEmpty) = true := fun x hx => by simpa using h x hx
  rw [opened, List.filter_eq_self.2 hall]

theorem canonical_opened {n : Connections} (h : Keyed n) (hr : EachPort Readable n) : Canonical (opened n) where
  distinct := List.Pairwise.sublist List.filter_sublist h.distinct
  texts x hx := h.texts x (List.mem_of_mem_filter hx)
  types x hx := h.types x (List.mem_of_mem_filter hx)
  filled x hx := by simpa using (List.mem_filter.1 hx).2
  readable x hx := hr x (List.mem_of_mem_filter hx)

end Connections

end WorkflowGraph
