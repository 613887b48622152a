import WorkflowGraph.Proofs.Connections.Reading
/-
Normal form of connections as a document writes them: an object of objects, in which every port type has a list of
ports, every port a list of descriptors, and every descriptor exactly a target, a type and an input. The order of a
descriptor's fields does not matter.

- `inNormalForm_toValue`: connections that were read are written in normal form.
- `exists_normalize`: a value in normal form is read as connections that are written as an equal value.
- `normalize_normal`: both, and that reading twice comes to reading once.
-/
namespace WorkflowGraph

namespace Value

/-- a list all of whose items are of a kind -/
def ListOf (P : Value → Prop) (v : Value) : Prop := ∃ items, v = .list items ∧ ∀ w ∈ items, P w

/-- an object that names every field once and by a text, with fields of a kind that may depend on the name -/
def ObjectOf (P : String → Value → Prop) (v : Value) : Prop :=
  ∃ fields : Fields, v = .object fields ∧ Table.Distinct fields ∧ ∀ e ∈ fields, ∃ name, e.1 = .text name ∧ P name e.2

end Value

namespace Connections

/-! ## Form -/

/-- the fields of a descriptor: a target, a type and an input, and nothing else, in any order -/
def Describes (fields : Fields) (name type : String) (index : Nat) : Prop :=
  fields.Perm [(.text "node", .text name), (.text "type", .text type), (.text "index", .int index)]

/-- a descriptor with a target that is not blank, and a type that is empty only where the port type is -/
def IsDescriptor (portType : String) (v : Value) : Prop :=
  ∃ fields name type index, v = .object fields ∧ Describes fields name type index ∧
    Text.isBlankText name = false ∧ (type ≠ "" ∨ type = portType)

/-- an object of objects whose fields are lists of lists of descriptors -/
def InNormalForm (v : Value) : Prop :=
  v.ObjectOf fun _ => Value.ObjectOf fun portType => Value.ListOf (Value.ListOf (IsDescriptor portType))

/-! ## What is read is written in normal form -/

theorem isDescriptor_toValue {portType : String} {e : Edge} (h : ReadableEdge portType e) :
    IsDescriptor portType e.toValue := by
  refine ⟨_, e.node, e.type, e.index, rfl, List.Perm.refl _, h.1, ?_⟩
  by_cases ht : e.type = ""
  · right
    rw [ht, h.2 ht]
  · exact Or.inl ht

theorem portList_form {portType : String} {ports : List Port} (h : ∀ p ∈ ports, Readable portType p) :
    Value.ListOf (Value.ListOf (IsDescriptor portType)) (.list (ports.map portValue)) := by
  refine ⟨_, rfl, ?_⟩
  intro v hv
  obtain ⟨p, hp, rfl⟩ := List.mem_map.1 hv
  refine ⟨_, rfl, ?_⟩
  intro w hw
  obtain ⟨e, he, rfl⟩ := List.mem_map.1 hw
  exact isDescriptor_toValue (h p hp e he)

/-- connections with every source and every port type once, whose edges can be read, are written in normal form -/
theorem inNormalForm_toValue {c : Connections} (h : Keyed c) (hr : EachPort Readable c) : InNormalForm c.toValue := by
  refine ⟨_, rfl, Table.distinct_map (fun x => portTableValue x.2) h.distinct, ?_⟩
  intro e he
  obtain ⟨x, hx, rfl⟩ := List.mem_map.1 he
  obtain ⟨source, hsource⟩ := h.texts x hx
  refine ⟨source, hsource, _, rfl, ?_, ?_⟩
  · refine List.pairwise_map.2 ((h.types x hx).imp ?_)
    intro a b hab
    rw [Key.text_beq_text]
    simpa using hab
  · intro e' he'
    obtain ⟨y, hy, rfl⟩ := List.mem_map.1 he'
    exact ⟨y.1, rfl, portList_form (hr x hx y hy)⟩

/-! ## What is in normal form is read as it is -/

theorem Describes.distinct {fields : Fields} {name type : String} {index : Nat}
    (h : Describes fields name type index) : Table.Distinct fields := by
  apply Table.Distinct.perm _ (List.Perm.symm h)
  simp [Table.Distinct, Key.text_beq_text]

/-- a descriptor is read as its target, its type and its input -/
theorem exists_readEdge {portType : String} {v : Value} (h : IsDescriptor portType v) :
    ∃ e, readEdge portType v = .ok (some e) ∧ (e.toValue == v) = true := by
  obtain ⟨fields, name, type, index, rfl, hfields, hname, htype⟩ := h
  have hget : ∀ e ∈ (Edge.mk name type index).toValue.object?.getD [], Table.get? e.1 fields = some e.2 :=
    fun e he => Table.get?_of_mem hfields.distinct (hfields.mem_iff.2 he)
  simp only [Edge.toValue, Value.object?, Option.getD_some, List.forall_mem_cons] at hget
  obtain ⟨hnode, htag, hinput, -⟩ := hget
  have htarget : targetName? (.object fields) = some name := by
    simp [targetName?, firstField, hnode, hname]
  have hkind : edgeType portType (.object fields) = type := by
    rcases htype with hne | rfl
    · simp [edgeType, firstField, htag, hne]
    · simp [edgeType, firstField, htag]
  have hindex : edgeIndex (.object fields) = .ok index := by
    simp [edgeIndex, hinput, inputIndex, Value.toWhole]
  refine ⟨⟨name, type, index⟩, ?_, ?_⟩
  · simp [readEdge, htarget, hkind, hindex, Except.map]
  · apply Value.object_beq_of_get? hfields.length_eq.symm
    simp only [List.forall_mem_cons]
    refine ⟨⟨_, hnode, ?_⟩, ⟨_, htag, ?_⟩, ⟨_, hinput, ?_⟩, by simp⟩
    all_goals simp [BEq.beq, Value.same, Value.toKey?]

theorem exists_readPort {portType : String} {vs : List Value} (h : ∀ v ∈ vs, IsDescriptor portType v) :
    ∃ p, readPort portType vs = .ok p ∧ (portValue p == .list vs) = true := by
  have run : ∃ p, readPort portType vs = .ok p ∧ List.Forall₂ (fun e v => (Edge.toValue e == v) = true) p vs := by
    induction vs with
    | nil => exact ⟨[], rfl, List.Forall₂.nil⟩
    | cons v vs ih =>
      rw [List.forall_mem_cons] at h
      obtain ⟨e, he, heq⟩ := exists_readEdge h.1
      obtain ⟨p, hp, hrest⟩ := ih h.2
      refine ⟨e :: p, ?_, List.Forall₂.cons heq hrest⟩
      rw [readPort, he, hp]
      rfl
  obtain ⟨p, hp, hsame⟩ := run
  exact ⟨p, hp, Value.list_beq_of_forall₂ (List.forall₂_map_left_iff.2 hsame)⟩

/-- a list of lists is no port without its wrapper -/
theorem isFlat_of_listOf {P : Value → Prop} {items : List Value} (h : ∀ v ∈ items, v.ListOf P) :
    isFlat items = false := by
  cases items with
  | nil => rfl
  | cons v items =>
    obtain ⟨l, rfl, -⟩ := h v List.mem_cons_self
    rfl

theorem exists_readPorts {portType : String} {v : Value} (h : Value.ListOf (Value.ListOf (IsDescriptor portType)) v) :
    ∃ ports, readPorts portType v = .ok ports ∧ (Value.list (ports.map portValue) == v) = true := by
  obtain ⟨items, rfl, hitems⟩ := h
  have hflat : isFlat items = false := isFlat_of_listOf hitems
  have hentries : ∀ v ∈ items, ∃ p, readEntry portType v = .ok p ∧ (portValue p == v) = true := by
    intro v hv
    obtain ⟨ds, rfl, hds⟩ := hitems v hv
    exact exists_readPort hds
  obtain ⟨ports, hports, hsame⟩ := exists_mapM_of_forall hentries
  refine ⟨ports, ?_, Value.list_beq_of_forall₂ (List.forall₂_map_left_iff.2 hsame)⟩
  simp only [readPorts, hflat, Bool.false_eq_true, if_false]
  exact hports

/-- the port types of a source are read one after another, each into an entry of its own -/
theorem exists_readPortTable {fields : Fields} (done : PortTable) (hd : Table.Distinct fields)
    (hnew : ∀ e ∈ fields, ∀ y ∈ done, (e.1 == Key.text y.1) = false)
    (h : ∀ e ∈ fields, ∃ portType, e.1 = .text portType ∧ Value.ListOf (Value.ListOf (IsDescriptor portType)) e.2) :
    ∃ t, readPortTable done fields = .ok (done ++ t) ∧
      List.Forall₂ (fun (y : String × List Port) e =>
        Key.text y.1 = e.1 ∧ (Value.list (y.2.map portValue) == e.2) = true) t fields := by
  induction fields generalizing done with
  | nil => exact ⟨[], by simp [readPortTable], List.Forall₂.nil⟩
  | cons e fields ih =>
    obtain ⟨k, v⟩ := e
    obtain ⟨hfirst, hrest⟩ := List.pairwise_cons.1 hd
    rw [List.forall_mem_cons] at hnew h
    obtain ⟨⟨portType, rfl, hv⟩, h⟩ := h
    obtain ⟨ports, hports, hsame⟩ := exists_readPorts hv
    have hhas : Table.has portType done = false := by
      rw [Table.has_eq_false_iff]
      intro y hy
      have hne := hnew.1 y hy
      rw [Key.text_beq_text] at hne
      exact beq_eq_false_iff_ne.2 fun heq => of_decide_eq_false hne heq.symm
    obtain ⟨t, ht, hfields⟩ := ih (done ++ [(portType, ports)]) hrest (by
      intro e he y hy
      rcases List.mem_append.1 hy with hy | hy
      · exact hnew.2 e he y hy
      · rw [List.mem_singleton.1 hy, BEq.comm]
        exact hfirst e he) h
    refine ⟨(portType, ports) :: t, ?_, List.Forall₂.cons ⟨rfl, hsame⟩ hfields⟩
    rw [readPortTable]
    simp only [Key.toText, hports]
    show readPortTable (Table.put portType ports done) fields = _
    rw [Table.put_of_not_has hhas, ht, List.append_assoc]
    rfl

theorem exists_byPortType {v : Value}
    (h : v.ObjectOf fun portType => Value.ListOf (Value.ListOf (IsDescriptor portType))) :
    ∃ fields t, byPortType? v = some fields ∧ readPortTable [] fields = .ok t ∧ (portTableValue t == v) = true := by
  obtain ⟨fields, rfl, hd, hfields⟩ := h
  obtain ⟨t, ht, hsame⟩ := exists_readPortTable [] hd (by simp) hfields
  exact ⟨fields, t, rfl, ht, Value.object_beq_of_forall₂ hd (List.forall₂_map_left_iff.2 hsame)⟩

/-- the sources are read one after another, each into an entry of its own -/
theorem exists_readSources {fields : Fields} (done : Table Key PortTable) (hd : Table.Distinct fields)
    (hnew : ∀ e ∈ fields, ∀ x ∈ done, (e.1 == x.1) = false)
    (h : ∀ e ∈ fields, ∃ source, e.1 = .text source ∧
      e.2.ObjectOf fun portType => Value.ListOf (Value.ListOf (IsDescriptor portType))) :
    ∃ t, readSources done fields = .ok (done ++ t) ∧
      List.Forall₂ (fun (x : Key × PortTable) e => x.1 = e.1 ∧ (portTableValue x.2 == e.2) = true) t fields := by
  induction fields generalizing done with
  | nil => exact ⟨[], by simp [readSources], List.Forall₂.nil⟩
  | cons e fields ih =>
    obtain ⟨k, v⟩ := e
    obtain ⟨hfirst, hrest⟩ := List.pairwise_cons.1 hd
    rw [List.forall_mem_cons] at hnew h
    obtain ⟨⟨source, rfl, hv⟩, h⟩ := h
    obtain ⟨types, ports, htypes, hports, hsame⟩ := exists_byPortType hv
    have hhas : Table.has (Key.text source) done = false := by
      rw [Table.has_eq_false_iff]
      intro x hx
      rw [BEq.comm]
      exact hnew.1 x hx
    obtain ⟨t, ht, hfields⟩ := ih (done ++ [(.text source, ports)]) hrest (by
      intro e he x hx
      rcases List.mem_append.1 hx with hx | hx
      · exact hnew.2 e he x hx
      · rw [List.mem_singleton.1 hx, BEq.comm]
        exact hfirst e he) h
    refine ⟨(.text source, ports) :: t, ?_, List.Forall₂.cons ⟨rfl, hsame⟩ hfields⟩
    rw [readSources]
    simp only [htypes, hports, Key.toText]
    show readSources (Table.put (.text source) ports done) fields = _
    rw [Table.put_of_not_has hhas, ht, List.append_assoc]
    rfl

/-- a value in normal form is read as connections that are written as an equal value -/
theorem exists_normalize {v : Value} (h : InNormalForm v) :
    ∃ n, normalize v = .ok n ∧ (n.toValue == v) = true := by
  obtain ⟨fields, rfl, hd, hfields⟩ := h
  obtain ⟨t, ht, hsame⟩ := exists_readSources [] hd (by simp) hfields
  refine ⟨⟨t⟩, ?_, Value.object_beq_of_forall₂ hd (List.forall₂_map_left_iff.2 hsame)⟩
  rw [normalize, ht]
  rfl

/-! ## Reading into normal form -/

/-- **Reading gives the normal form and keeps it.** Whatever can be read is written in normal form; a value in normal
form is read as itself; and what was read once is read as itself again. -/
theorem normalize_normal :
    (∀ raw n, normalize raw = .ok n → InNormalForm n.toValue) ∧
      (∀ v, InNormalForm v → ∃ n, normalize v = .ok n ∧ (n.toValue == v) = true) ∧
      ∀ raw n, normalize raw = .ok n → normalize n.toValue = .ok n := by
  refine ⟨?_, fun v hv => exists_normalize hv, ?_⟩
  · intro raw n h
    obtain ⟨hkeyed, hreadable⟩ := normalize_form h
    exact inNormalForm_toValue hkeyed hreadable
  · intro raw n h
    obtain ⟨hkeyed, hreadable⟩ := normalize_form h
    exact normalize_written hkeyed hreadable

/-- bare names without a port type, a single descriptor with other keys, a port without edges and one with a repeated
edge, a source without port types, and one that describes nothing -/
def looseAdjacency : Value := .object [
  (.text "Start", .list [.text " Fetch ", .null]),
  (.text "Fetch", .object [
    (.text "main", .object [(.text "targetName", .text "Stop"), (.text "index", .text "1")])]),
  (.text "Stop", .object [(.text "main", .list [.null, .list [.text "Fetch", .text "Fetch"]])]),
  (.text "End", .object []),
  (.text "Lost", .null)]

/-- what the loose adjacency says -/
def looseConnections : Connections := ⟨[
  (.text "Start", [("main", [[.plain "Fetch" "main" 0]])]),
  (.text "Fetch", [("main", [[.plain "Stop" "main" 1]])]),
  (.text "Stop", [("main", [[], [.plain "Fetch" "main" 0, .plain "Fetch" "main" 0]])]),
  (.text "End", [])]⟩

theorem normalize_looseAdjacency : normalize looseAdjacency = .ok looseConnections := rfl

theorem normalize_normal_looseAdjacency :
    InNormalForm looseConnections.toValue ∧ normalize looseConnections.toValue = .ok looseConnections ∧
      ∃ n, normalize looseConnections.toValue = .ok n ∧ (n.toValue == looseConnections.toValue) = true := by
  obtain ⟨hform, hread, hagain⟩ := normalize_normal
  have hnormal := hform _ _ normalize_looseAdjacency
  exact ⟨hnormal, hagain _ _ normalize_looseAdjacency, hread _ hnormal⟩

end Connections

end WorkflowGraph
