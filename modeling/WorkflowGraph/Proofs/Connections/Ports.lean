import WorkflowGraph.Proofs.Connections.Canonical
/-
Connections seen port by port. What every operation does to the ports is one equation each, and the edges of canonical
connections are those on their ports.
-/
namespace WorkflowGraph

namespace Connections

/-- the edges on a port, none where there is no such port -/
def portAt (c : Connections) (source : Key) (portType : String) (i : Nat) : Port :=
  ((c.ports source portType)[i]?).getD []

/-- an edge leaves a source for a target, by whatever port -/
def Joins (c : Connections) (source : Key) (target : String) : Prop :=
  ∃ portType i, ∃ e ∈ c.portAt source portType i, e.node = target

/-! ## Operations -/

theorem ports_mapPorts (c : Connections) (f : Port → Port) (source : Key) (portType : String) :
    (c.mapPorts f).ports source portType = (c.ports source portType).map f := by
  unfold ports portTable
  rw [mapPorts_table, Table.get?_map (fun t : PortTable => t.map fun y => (y.1, y.2.map f))]
  cases Table.get? source c.table with
  | none => rfl
  | some t =>
    simp only [Option.map_some, Option.getD_some]
    rw [Table.get?_map (fun ports : List Port => ports.map f)]
    cases Table.get? portType t with
    | none => rfl
    | some ports => rfl

theorem portAt_mapPorts (c : Connections) {f : Port → Port} (hf : f [] = []) (source : Key) (portType : String)
    (i : Nat) : (c.mapPorts f).portAt source portType i = f (c.portAt source portType i) := by
  unfold portAt
  rw [ports_mapPorts, List.getElem?_map]
  cases (c.ports source portType)[i]? with
  | none => exact hf.symm
  | some p => rfl

theorem getD_getElem?_pad (count : Nat) (ports : List Port) (i : Nat) :
    ((pad count ports)[i]?).getD [] = (ports[i]?).getD [] := by
  by_cases h : i < ports.length
  · rw [getElem?_pad count ports i h]
  · rw [List.getElem?_eq_none (Nat.le_of_not_lt h)]
    unfold pad
    rw [List.getElem?_append_right (Nat.le_of_not_lt h), List.getElem?_replicate]
    split <;> rfl

theorem ports_addEdge (c : Connections) (source source' : Key) (portType portType' : String) (port : Nat) (e : Edge) :
    (c.addEdge source portType port e).ports source' portType' =
      if (source == source') = true ∧ portType = portType' then
        (pad (port + 1) (c.ports source portType)).modify port (insertEdge e)
      else c.ports source' portType' := by
  unfold addEdge
  rw [ports_modifyPorts]

theorem ports_congr (c : Connections) {source source' : Key} (h : (source == source') = true) (portType : String) :
    c.ports source portType = c.ports source' portType := by
  unfold ports portTable
  rw [Table.get?_congr h]

theorem portAt_addEdge (c : Connections) (source source' : Key) (portType portType' : String) (port i : Nat)
    (e : Edge) :
    (c.addEdge source portType port e).portAt source' portType' i =
      if (source == source') = true ∧ portType = portType' ∧ port = i then
        insertEdge e (c.portAt source' portType' i)
      else c.portAt source' portType' i := by
  unfold portAt
  rw [ports_addEdge]
  by_cases hs : (source == source') = true ∧ portType = portType'
  · obtain ⟨hs, rfl⟩ := hs
    rw [if_pos ⟨hs, rfl⟩, ports_congr c hs, List.getElem?_modify]
    by_cases hi : port = i
    · subst hi
      have hlt : port < (pad (port + 1) (c.ports source' portType)).length := by rw [length_pad]; omega
      have hport := getD_getElem?_pad (port + 1) (c.ports source' portType) port
      rw [List.getElem?_eq_getElem hlt, Option.getD_some] at hport
      rw [if_pos ⟨hs, rfl, rfl⟩, List.getElem?_eq_getElem hlt]
      simp [hport]
    · rw [if_neg fun h => hi h.2.2]
      simp [hi, getD_getElem?_pad]
  · rw [if_neg hs, if_neg fun h => hs ⟨h.1, h.2.1⟩]

theorem length_ports_addEdge_le (c : Connections) (source source' : Key) (portType portType' : String) (port : Nat)
    (e : Edge) :
    (c.ports source' portType').length ≤ ((c.addEdge source portType port e).ports source' portType').length := by
  rw [ports_addEdge]
  split
  · rename_i h
    obtain ⟨hs, rfl⟩ := h
    rw [ports_congr c hs, List.length_modify, length_pad]
    exact Nat.le_max_right _ _
  · exact Nat.le_refl _

/-- an edge on a port that is there opens none -/
theorem length_ports_addEdge {c : Connections} {source : Key} {portType : String} {port : Nat}
    (h : port < (c.ports source portType).length) (e : Edge) :
    ((c.addEdge source portType port e).ports source portType).length = (c.ports source portType).length := by
  rw [ports_addEdge, if_pos ⟨BEq.refl source, rfl⟩, List.length_modify, length_pad]
  omega

theorem length_ports_ensurePorts (c : Connections) (source : Key) (portType : String) (count : Nat) :
    ((c.ensurePorts source portType count).ports source portType).length =
      max count (c.ports source portType).length := by
  rw [ensurePorts, ports_modifyPorts, if_pos ⟨BEq.refl source, rfl⟩, length_pad]

/-- an added edge joins its source and its target, and the others join what they joined -/
theorem joins_addEdge {c : Connections} {source source' : Key} {portType target : String} {port : Nat} {e : Edge} :
    (c.addEdge source portType port e).Joins source' target ↔
      c.Joins source' target ∨ ((source == source') = true ∧ e.node = target) := by
  unfold Joins
  constructor
  · rintro ⟨portType', i, e', he', rfl⟩
    rw [portAt_addEdge] at he'
    split at he'
    · rename_i hplace
      rcases (mem_insertEdge _ _ _).1 he' with rfl | he'
      · exact Or.inr ⟨hplace.1, rfl⟩
      · exact Or.inl ⟨portType', i, e', he', rfl⟩
    · exact Or.inl ⟨portType', i, e', he', rfl⟩
  · rintro (⟨portType', i, e', he', rfl⟩ | ⟨hsource, rfl⟩)
    · refine ⟨portType', i, e', ?_, rfl⟩
      rw [portAt_addEdge]
      split
      · exact (mem_insertEdge _ _ _).2 (Or.inr he')
      · exact he'
    · refine ⟨portType, port, e, ?_, rfl⟩
      rw [portAt_addEdge, if_pos ⟨hsource, rfl, rfl⟩]
      exact (mem_insertEdge _ _ _).2 (Or.inl rfl)

theorem joins_connect {c : Connections} {source source' : Key} {target target' : String} {index : Nat} :
    (c.connect source target index).Joins source' target' ↔
      c.Joins source' target' ∨ ((source == source') = true ∧ target = target') :=
  joins_addEdge

/-- more ports hold no edges -/
theorem portAt_ensurePorts (c : Connections) (source source' : Key) (portType portType' : String) (count i : Nat) :
    (c.ensurePorts source portType count).portAt source' portType' i = c.portAt source' portType' i := by
  unfold portAt ensurePorts
  rw [ports_modifyPorts]
  split
  · rename_i h
    obtain ⟨hs, rfl⟩ := h
    rw [getD_getElem?_pad, ports_congr c hs]
  · rfl

/-- more ports join nothing new -/
theorem joins_ensurePorts {c : Connections} {source source' : Key} {portType target : String} {count : Nat} :
    (c.ensurePorts source portType count).Joins source' target ↔ c.Joins source' target := by
  unfold Joins
  simp only [portAt_ensurePorts]

theorem portTable_modifyPorts (c : Connections) (source source' : Key) (portType : String)
    (f : List Port → List Port) :
    (c.modifyPorts source portType f).portTable source' =
      if (source == source') = true then (c.portTable source).modify portType fun ports => f (ports.getD [])
      else c.portTable source' := by
  unfold portTable modifyPorts
  rw [Table.get?_modify]
  split <;> rfl

/-- some port of a list holds an edge to a target -/
def LeadTo (target : String) (ports : List Port) : Prop := ∃ p ∈ ports, ∃ e ∈ p, e.node = target

/-- with an edge on the first port, the ports lead to its target and to all they led to -/
theorem leadTo_insertEdge {name target : String} {ports : List Port} (h : LeadTo name ports ∨ name = target)
    (index : Nat) : LeadTo name ((pad 1 ports).modify 0 (insertEdge (.plain target mainType index))) := by
  obtain ⟨first, rest, hpad⟩ : ∃ first rest, pad 1 ports = first :: rest := by
    cases ports with
    | nil => exact ⟨[], [], rfl⟩
    | cons p ports => exact ⟨p, ports, by simp [pad]⟩
  rw [hpad, List.modify_zero_cons]
  rcases h with ⟨p, hp, e, he, hnode⟩ | rfl
  · have hmem : p ∈ first :: rest := hpad ▸ List.mem_append_left _ hp
    rcases List.mem_cons.1 hmem with rfl | hmem
    · exact ⟨_, List.mem_cons_self, e, (mem_insertEdge _ _ _).2 (Or.inr he), hnode⟩
    · exact ⟨p, List.mem_cons_of_mem _ hmem, e, he, hnode⟩
  · exact ⟨_, List.mem_cons_self, _, (mem_insertEdge _ _ _).2 (Or.inl rfl), rfl⟩

/-- after an edge was added its source has an edge, and so has every source that had one -/
theorem hasOutgoing_connect (c : Connections) (source source' : Key) (target : String) (index : Nat) :
    (c.connect source target index).hasOutgoing source' = ((source == source') || c.hasOutgoing source') := by
  unfold hasOutgoing connect addEdge
  rw [portTable_modifyPorts]
  by_cases h : (source == source') = true
  · rw [if_pos h, h, Bool.true_or, List.any_eq_true]
    refine Table.exists_modify mainType (P := fun _ (ports : List Port) => (ports.any fun p => !p.isEmpty) = true)
      (fun _ ports => ?_) _
    obtain ⟨p, hp, e, he, -⟩ : LeadTo target _ := leadTo_insertEdge (Or.inr rfl) index
    exact List.any_eq_true.2 ⟨p, hp, by simpa using List.ne_nil_of_mem he⟩
  · rw [if_neg h]
    simp [h]

/-! ## Edges -/

theorem mem_numbered {first i : Nat} {e : Edge} {ports : List Port} :
    (i, e) ∈ numbered first ports ↔ first ≤ i ∧ e ∈ (ports[i - first]?).getD [] := by
  induction ports generalizing first with
  | nil => simp [numbered]
  | cons p ports ih =>
    rw [numbered, List.mem_append, ih]
    constructor
    · rintro (h | ⟨hle, h⟩)
      · obtain ⟨a, ha, heq⟩ := List.mem_map.1 h
        cases heq
        simpa using ha
      · obtain ⟨j, rfl⟩ : ∃ j, i = first + 1 + j := ⟨i - (first + 1), by omega⟩
        have hsub : first + 1 + j - first = j + 1 := by omega
        refine ⟨by omega, ?_⟩
        rw [hsub, List.getElem?_cons_succ]
        simpa using h
    · rintro ⟨hle, h⟩
      rcases Nat.eq_or_lt_of_le hle with rfl | hlt
      · left
        simpa using h
      · right
        obtain ⟨j, rfl⟩ : ∃ j, i = first + 1 + j := ⟨i - (first + 1), by omega⟩
        have hsub : first + 1 + j - first = j + 1 := by omega
        rw [hsub, List.getElem?_cons_succ] at h
        exact ⟨by omega, by simpa using h⟩

theorem mem_links_iff {c : Connections} {l : Link} :
    l ∈ c.links ↔ ∃ x ∈ c.table, x.1 = l.source ∧ ∃ y ∈ x.2, y.1 = l.portType ∧ l.edge ∈ (y.2[l.port]?).getD [] := by
  constructor
  · intro h
    obtain ⟨x, hx, h⟩ := List.mem_flatMap.1 h
    obtain ⟨y, hy, h⟩ := List.mem_flatMap.1 h
    obtain ⟨⟨i, e⟩, hi, rfl⟩ := List.mem_map.1 h
    exact ⟨x, hx, rfl, y, hy, rfl, by simpa using (mem_numbered.1 hi).2⟩
  · rintro ⟨x, hx, hsource, y, hy, htype, he⟩
    refine List.mem_flatMap.2 ⟨x, hx, List.mem_flatMap.2 ⟨y, hy, List.mem_map.2 ⟨(l.port, l.edge), ?_, ?_⟩⟩⟩
    · exact mem_numbered.2 ⟨Nat.zero_le _, by simpa using he⟩
    · cases l
      simp_all

/-- edges lead to targets -/
theorem eachPort_targets (c : Connections) : EachPort (fun _ p => ∀ e ∈ p, e.node ∈ c.targets) c := by
  intro x hx y hy p hp e he
  obtain ⟨i, hi⟩ := List.mem_iff_getElem?.1 hp
  have hlink : (⟨x.1, y.1, i, e⟩ : Link) ∈ c.links :=
    mem_links_iff.2 ⟨x, hx, rfl, y, hy, rfl, by rw [hi, Option.getD_some]; exact he⟩
  exact List.mem_map.2 ⟨_, hlink, rfl⟩

/-- a name is a target when an edge on some port leads to it -/
theorem isTarget_iff {c : Connections} {name : String} :
    c.isTarget name = true ↔ ∃ x ∈ c.table, ∃ y ∈ x.2, LeadTo name y.2 := by
  rw [isTarget, List.contains_iff_mem]
  constructor
  · intro h
    obtain ⟨l, hl, rfl⟩ := List.mem_map.1 h
    obtain ⟨x, hx, -, y, hy, -, he⟩ := mem_links_iff.1 hl
    cases hp : y.2[l.port]? with
    | none => simp [hp] at he
    | some p =>
      rw [hp, Option.getD_some] at he
      exact ⟨x, hx, y, hy, p, List.mem_of_getElem? hp, l.edge, he, rfl⟩
  · rintro ⟨x, hx, y, hy, p, hp, e, he, rfl⟩
    exact c.eachPort_targets x hx y hy p hp e he

/-- an added edge takes no target away -/
theorem isTarget_connect {c : Connections} {name : String} (h : c.isTarget name = true) (source : Key)
    (target : String) (index : Nat) : (c.connect source target index).isTarget name = true := by
  rw [isTarget_iff] at h ⊢
  refine Table.exists_modify_of_exists (P := fun _ (t : PortTable) => ∃ y ∈ t, LeadTo name y.2) h fun _ t ht => ?_
  exact Table.exists_modify_of_exists (P := fun _ ports => LeadTo name ports) ht fun _ ports hports =>
    leadTo_insertEdge (Or.inl hports) index

theorem isTarget_connect_self (c : Connections) (source : Key) (target : String) (index : Nat) :
    (c.connect source target index).isTarget target = true := by
  rw [isTarget_iff]
  refine Table.exists_modify source (P := fun _ (t : PortTable) => ∃ y ∈ t, LeadTo target y.2) (fun _ t => ?_) _
  exact Table.exists_modify mainType (P := fun _ ports => LeadTo target ports) (fun _ _ =>
    leadTo_insertEdge (Or.inr rfl) index) _

/-- without edges to a target there are none to remove -/
theorem removeEdgesTo_eq_self {c : Connections} {target : String} (h : c.countEdgesTo target = 0) :
    c.removeEdgesTo target = c := by
  refine mapPorts_eq_self (c.eachPort_targets.imp fun _ p hp => ?_)
  rw [List.filter_eq_self]
  intro e he
  have hne : e.node ≠ target := by
    rintro rfl
    exact List.count_eq_zero.1 h (hp e he)
  simpa using hne

/-- the edges of canonical connections are those on their ports -/
theorem Keyed.mem_links {c : Connections} (h : Keyed c) {l : Link} :
    l ∈ c.links ↔ l.edge ∈ c.portAt l.source l.portType l.port := by
  rw [mem_links_iff]
  constructor
  · rintro ⟨⟨k, t⟩, hx, hk, ⟨pt, ports⟩, hy, hpt, he⟩
    simp only at hk hpt
    subst hk hpt
    unfold portAt Connections.ports portTable
    rw [Table.get?_of_mem h.distinct hx, Option.getD_some, Table.get?_of_mem (h.types _ hx) hy, Option.getD_some]
    exact he
  · intro he
    unfold portAt Connections.ports portTable at he
    cases ht : Table.get? l.source c.table with
    | none => simp [ht, Table.get?] at he
    | some t =>
      rw [ht, Option.getD_some] at he
      cases hp : Table.get? l.portType t with
      | none => simp [hp] at he
      | some ports =>
        rw [hp, Option.getD_some] at he
        obtain ⟨k, hk, hmem⟩ := Table.exists_mem_of_get? ht
        obtain ⟨pt, hpt, hmem'⟩ := Table.exists_mem_of_get? hp
        obtain ⟨s, rfl⟩ := h.texts _ hmem
        exact ⟨_, hmem, (Key.eq_text_of_beq (BEq.symm hk)).symm, _, hmem', by simpa using hpt, he⟩

theorem Keyed.exists_link_iff {c : Connections} (h : Keyed c) {source : Key} {target : String} :
    (∃ l ∈ c.links, l.source = source ∧ l.edge.node = target) ↔ c.Joins source target := by
  constructor
  · rintro ⟨l, hl, rfl, rfl⟩
    exact ⟨l.portType, l.port, l.edge, h.mem_links.1 hl, rfl⟩
  · rintro ⟨portType, i, e, he, rfl⟩
    exact ⟨⟨source, portType, i, e⟩, h.mem_links.2 he, rfl, rfl⟩

end Connections

end WorkflowGraph
