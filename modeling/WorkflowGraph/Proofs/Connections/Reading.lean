import WorkflowGraph.Proofs.Connections.RoundTrip
import WorkflowGraph.Proofs.Fault
import WorkflowGraph.Proofs.Text.Blank
/-
What reading connections gives. Whatever a document says, `normalize` hands out sources and port types once each and
edges that can be read again; `load` hands out canonical connections in which no port holds an edge twice. Canonical
connections that were written are read back as they are.

- `normalize_form`, `load_form`: the form of what is read.
- `normalize_written`, `load_toValue`, `load_toValue_simple`: what was written is read back.
-/
namespace WorkflowGraph

namespace Connections

/-! ## The form of what is read -/

theorem targetName?_not_blank {v : Value} {name : String} (h : targetName? v = some name) :
    Text.isBlankText name = false := by
  cases v with
  | text s =>
    simp only [targetName?] at h
    split at h
    · cases h
    · rename_i hne
      cases h
      exact Text.isBlankText_strip (by simpa using hne)
  | object fields =>
    simp only [targetName?] at h
    split at h
    · split at h
      · cases h
      · rename_i hne
        cases h
        simpa using hne
    · cases h
  | _ => cases h

theorem edgeType_eq_empty {portType : String} {v : Value} (h : edgeType portType v = "") : portType = "" := by
  unfold edgeType at h
  split at h
  · split at h
    · split at h
      · exact h
      · rename_i hne
        simp [h] at hne
    · exact h
  · exact h

theorem readableEdge_of_readEdge {portType : String} {v : Value} {e : Edge} (h : readEdge portType v = .ok (some e)) :
    ReadableEdge portType e := by
  unfold readEdge at h
  split at h
  · cases h
  · rename_i name hname
    obtain ⟨i, -, hi⟩ := map_eq_ok.1 h
    cases hi
    exact ⟨targetName?_not_blank hname, edgeType_eq_empty⟩

theorem readable_of_readPort {portType : String} {vs : List Value} {p : Port} (h : readPort portType vs = .ok p) :
    Readable portType p := by
  induction vs generalizing p with
  | nil => cases h; exact readable_nil portType
  | cons v vs ih =>
    obtain ⟨e, he, h⟩ := bind_eq_ok.1 h
    obtain ⟨rest, hrest, h⟩ := bind_eq_ok.1 h
    cases h
    intro e' he'
    rcases List.mem_append.1 he' with hm | hm
    · rw [Option.mem_toList.1 hm] at he
      exact readableEdge_of_readEdge he
    · exact ih hrest e' hm

theorem readable_of_readEntry {portType : String} {v : Value} {p : Port} (h : readEntry portType v = .ok p) :
    Readable portType p := by
  cases v with
  | _ => exact readable_of_readPort h

theorem readable_of_singlePort {portType : String} {v : Value} {ports : List Port}
    (h : readPorts.singlePort portType v = .ok ports) : ∀ p ∈ ports, Readable portType p := by
  obtain ⟨e, he, h⟩ := map_eq_ok.1 h
  cases e with
  | none => subst h; simp
  | some e =>
    subst h
    intro p hp
    rw [List.mem_singleton.1 hp]
    intro e' he'
    rw [List.mem_singleton.1 he']
    exact readableEdge_of_readEdge he

theorem readable_of_readPorts {portType : String} {v : Value} {ports : List Port}
    (h : readPorts portType v = .ok ports) : ∀ p ∈ ports, Readable portType p := by
  cases v with
  | list items =>
    simp only [readPorts] at h
    split at h
    · obtain ⟨p, hp, rfl⟩ := map_eq_ok.1 h
      intro q hq
      rw [List.mem_singleton.1 hq]
      exact readable_of_readPort hp
    · intro p hp
      obtain ⟨v, -, hv⟩ := exists_of_mem_mapM h hp
      exact readable_of_readEntry hv
  | text s => exact readable_of_singlePort h
  | object fields => exact readable_of_singlePort h
  | _ => cases h; simp

theorem readPortTable_form {entries : List (Key × Value)} {done t : PortTable} (h : readPortTable done entries = .ok t)
    (hd : Table.Distinct done) (hr : ∀ y ∈ done, ∀ p ∈ y.2, Readable y.1 p) :
    Table.Distinct t ∧ ∀ y ∈ t, ∀ p ∈ y.2, Readable y.1 p := by
  induction entries generalizing done with
  | nil => cases h; exact ⟨hd, hr⟩
  | cons e entries ih =>
    obtain ⟨ports, hports, h⟩ := bind_eq_ok.1 h
    have hnew := readable_of_readPorts hports
    refine ih h (Table.distinct_put hd) ?_
    refine Table.forall_put (P := fun pt (ports : List Port) => ∀ p ∈ ports, Readable pt p) hr hnew fun pt hpt => ?_
    obtain rfl : pt = e.1.toText := by simpa using hpt
    exact hnew

theorem readSources_form {entries : List (Key × Value)} {done t : Table Key PortTable}
    (h : readSources done entries = .ok t) (hk : Keyed ⟨done⟩) (hr : EachPort Readable ⟨done⟩) :
    Keyed ⟨t⟩ ∧ EachPort Readable ⟨t⟩ := by
  induction entries generalizing done with
  | nil => cases h; exact ⟨hk, hr⟩
  | cons e entries ih =>
    unfold readSources at h
    split at h
    · exact ih h hk hr
    · obtain ⟨ports, hports, h⟩ := bind_eq_ok.1 h
      obtain ⟨hdist, hread⟩ := readPortTable_form hports Table.distinct_nil (by simp)
      refine ih h ⟨Table.distinct_put hk.distinct, ?_, ?_⟩ ?_
      · exact Table.forall_put (P := fun (k : Key) (_ : PortTable) => ∃ s, k = .text s) hk.texts ⟨_, rfl⟩
          fun k hb => ⟨_, Key.eq_text_of_beq hb⟩
      · exact Table.forall_put (P := fun (_ : Key) (t : PortTable) => Table.Distinct t) hk.types hdist fun _ _ => hdist
      · exact Table.forall_put (P := fun (_ : Key) (t : PortTable) => ∀ y ∈ t, ∀ p ∈ y.2, Readable y.1 p) hr hread
          fun _ _ => hread

/-- a normal form has every source and every port type once, and edges that can be read again -/
theorem normalize_form {v : Value} {n : Connections} (h : normalize v = .ok n) : Keyed n ∧ EachPort Readable n := by
  cases v with
  | object fields =>
    obtain ⟨t, ht, rfl⟩ := map_eq_ok.1 h
    exact readSources_form ht canonical_empty.toKeyed canonical_empty.readable
  | _ => cases h; exact ⟨canonical_empty.toKeyed, canonical_empty.readable⟩

theorem readable_once {portType : String} {p : Port} (h : Readable portType p) : Readable portType (once p) :=
  readable_foldl_insertEdge h (readable_nil portType)

/-- connections that were loaded are canonical, and no port holds an edge twice -/
theorem load_form {v : Value} {c : Connections} (h : load v = .ok c) : Canonical c ∧ Simple c := by
  obtain ⟨n, hn, rfl⟩ := map_eq_ok.1 h
  obtain ⟨hk, hr⟩ := normalize_form hn
  rw [rebuild_eq hk]
  have hc := canonical_opened hk hr
  exact ⟨hc.mapPorts fun _ _ hp => readable_once hp, hc.readable.mapPorts fun _ p _ => nodup_once p⟩

/-! ## What was written is read back -/

/-- connections that were written equal themselves, whatever the order in which equality looks at them -/
theorem toValue_beq_self {c : Connections} (h : c.Keyed) : (c.toValue == c.toValue) = true := by
  refine Value.object_beq_self (Table.distinct_map (fun x => portTableValue x.2) h.distinct) ?_
  rw [List.forall_mem_map]
  intro x hx
  have htypes : Table.Distinct (x.2.map fun y => (Key.text y.1, Value.list (y.2.map portValue))) := by
    refine List.pairwise_map.2 ((h.types x hx).imp fun {a b} hab => ?_)
    rw [Key.text_beq_text]
    simpa using hab
  refine Value.object_beq_self htypes ?_
  rw [List.forall_mem_map]
  intro y _
  refine Value.list_beq_self ?_
  rw [List.forall_mem_map]
  intro p _
  refine Value.list_beq_self ?_
  rw [List.forall_mem_map]
  intro e _
  refine Value.object_beq_self ?_ ?_
  · simp [Table.Distinct, Key.text_beq_text]
  · simp [BEq.beq, Value.same, Value.toKey?]

theorem readEdge_toValue {portType : String} {e : Edge} (h : ReadableEdge portType e) :
    readEdge portType e.toValue = .ok (some e) := by
  have hname : targetName? e.toValue = some e.node := by
    simp [targetName?, Edge.toValue, firstField, Table.get?, h.1]
  have htype : edgeType portType e.toValue = e.type := by
    by_cases ht : e.type = ""
    · simp [edgeType, Edge.toValue, firstField, Table.get?, Key.text_beq_text, ht, h.2 ht]
    · simp [edgeType, Edge.toValue, firstField, Table.get?, Key.text_beq_text, ht]
  have hindex : edgeIndex e.toValue = .ok e.index := by
    simp [edgeIndex, Edge.toValue, Table.get?, Key.text_beq_text, inputIndex, Value.toWhole]
  simp [readEdge, hname, htype, hindex, Except.map]

theorem readPort_toValue {portType : String} {p : Port} (h : Readable portType p) :
    readPort portType (p.map Edge.toValue) = .ok p := by
  induction p with
  | nil => rfl
  | cons e p ih =>
    rw [Readable, List.forall_mem_cons] at h
    rw [List.map_cons, readPort, readEdge_toValue h.1, ih h.2]
    rfl

theorem readPorts_toValue {portType : String} {ports : List Port} (h : ∀ p ∈ ports, Readable portType p) :
    readPorts portType (.list (ports.map portValue)) = .ok ports := by
  have hflat : isFlat (ports.map portValue) = false := by
    cases ports with
    | nil => rfl
    | cons p ports => simp [isFlat, portValue, Value.isList, Value.list?]
  have hentries : (ports.map portValue).mapM (readEntry portType) = .ok ports := by
    rw [List.mapM_map]
    exact (mapM_eq_ok fun p hp => readPort_toValue (h p hp)).trans (by rw [List.map_id'])
  simp only [readPorts, hflat, Bool.false_eq_true, if_false]
  exact hentries

theorem readPortTable_toValue {done t : PortTable} (hd : Table.Distinct (done ++ t))
    (h : ∀ y ∈ t, ∀ p ∈ y.2, Readable y.1 p) :
    readPortTable done (t.map fun y => (.text y.1, .list (y.2.map portValue))) = .ok (done ++ t) := by
  induction t generalizing done with
  | nil => simp [readPortTable]
  | cons y t ih =>
    rw [List.forall_mem_cons] at h
    have hnext : Table.Distinct ((done ++ [y]) ++ t) := by simpa using hd
    have hput : Table.put y.1 y.2 done = done ++ [y] := Table.put_of_not_has hd.not_has
    rw [List.map_cons, readPortTable]
    simp only [Key.toText]
    rw [readPorts_toValue h.1]
    show readPortTable (Table.put y.1 y.2 done) _ = _
    rw [hput, ih hnext h.2]
    simp

theorem readSources_toValue {done t : Table Key PortTable} (hd : Table.Distinct (done ++ t))
    (ht : ∀ x ∈ t, ∃ s, x.1 = .text s) (hx : ∀ x ∈ t, Table.Distinct x.2)
    (h : ∀ x ∈ t, ∀ y ∈ x.2, ∀ p ∈ y.2, Readable y.1 p) :
    readSources done (t.map fun x => (x.1, portTableValue x.2)) = .ok (done ++ t) := by
  induction t generalizing done with
  | nil => simp [readSources]
  | cons x t ih =>
    rw [List.forall_mem_cons] at ht hx h
    obtain ⟨⟨s, hs⟩, ht⟩ := ht
    have hnext : Table.Distinct ((done ++ [x]) ++ t) := by simpa using hd
    have hput : Table.put x.1 x.2 done = done ++ [x] := Table.put_of_not_has hd.not_has
    have hfields : byPortType? (portTableValue x.2) =
        some (x.2.map fun y => (.text y.1, .list (y.2.map portValue))) := rfl
    have htypes : readPortTable [] (x.2.map fun y => (.text y.1, .list (y.2.map portValue))) = .ok x.2 :=
      readPortTable_toValue hx.1 h.1
    rw [List.map_cons, readSources]
    simp only [hfields]
    rw [htypes]
    show readSources (Table.put (.text x.1.toText) x.2 done) _ = _
    rw [hs, Key.toText, ← hs, hput, ih hnext ht hx.2 h.2]
    simp

/-- connections with every source and every port type once, whose edges can be read, are read back as they were
written -/
theorem normalize_written {c : Connections} (h : Keyed c) (hr : EachPort Readable c) : normalize c.toValue = .ok c := by
  have hread : readSources [] (c.table.map fun x => (x.1, portTableValue x.2)) = .ok c.table :=
    readSources_toValue h.distinct h.texts h.types hr
  exact map_eq_ok.2 ⟨_, hread, rfl⟩

/-- canonical connections are in normal form -/
theorem normalize_toValue {c : Connections} (h : Canonical c) : normalize c.toValue = .ok c :=
  normalize_written h.toKeyed h.readable

theorem load_toValue {c : Connections} (h : Canonical c) : load c.toValue = .ok (c.mapPorts once) := by
  rw [load, normalize_toValue h]
  show Except.ok (rebuild c) = _
  rw [rebuild_eq h.toKeyed, opened_eq_self h.filled]

/-- **Connections are read back as they were written**, as long as no port holds an edge twice. -/
theorem load_toValue_simple {c : Connections} (h : Canonical c) (hs : Simple c) : load c.toValue = .ok c := by
  rw [load_toValue h, mapPorts_once hs]

end Connections

end WorkflowGraph
