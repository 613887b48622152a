import WorkflowGraph.Proofs.Fault
import WorkflowGraph.Connections.Normal
/-
When connections can be read. Whatever is written in them is read or left out, with one exception: an edge whose input
is infinite has no number, and reading it fails.

- `succeeds_load_iff`: connections are read unless some edge in them has an infinite input.
-/
namespace WorkflowGraph

namespace Connections

/-! ## Descriptors -/

/-- the values that are read as edges in what describes the ports of one type -/
def portDescriptors : Value → List Value
  | .list items =>
    if isFlat items then items
    else items.flatMap fun
      | .list port => port
      | v => [v]
  | .text s => [.text s]
  | .object fields => [.object fields]
  | _ => []

/-- the values that are read as edges in what a source maps to -/
def sourceDescriptors (v : Value) : List Value := ((byPortType? v).getD []).flatMap fun (_, ports) => portDescriptors ports

/-- the values that are read as edges in connections -/
def descriptors : Value → List Value
  | .object fields => fields.flatMap fun (_, v) => sourceDescriptors v
  | _ => []

/-- a value describes an edge with a target whose input is infinite -/
def Endless (v : Value) : Prop :=
  (targetName? v).isSome = true ∧ ∃ fields s, v = .object fields ∧
    (["index", "targetInputIndex"].findSome? fun name => Table.get? (.text name) fields) = some (.float (.infinite s))

/-! ## Reading -/

/-- every value stands for an input, except infinity -/
theorem succeeds_inputIndex_iff {v : Value} : Succeeds (inputIndex v) ↔ ∀ s, v ≠ .float (.infinite s) := by
  have total : ∀ {v : Value}, v.toWhole ≠ .error .infinityToWhole → Succeeds (inputIndex v) := by
    intro v h
    unfold inputIndex
    split
    · exact succeeds_ok _
    · rename_i hinfinity
      exact absurd hinfinity h
    · exact succeeds_ok _
  constructor
  · rintro ⟨i, hi⟩ s rfl
    cases hi
  · intro h
    refine total fun hinfinity => ?_
    cases v with
    | float x =>
      cases x with
      | infinite s => exact h s rfl
      | nan => cases hinfinity
      | negativeZero => cases hinfinity
      | finite n hn => cases hinfinity
    | text s =>
      simp only [Value.toWhole] at hinfinity
      split at hinfinity <;> cases hinfinity
    | _ => cases hinfinity

theorem succeeds_readEdge_iff (portType : String) {v : Value} : Succeeds (readEdge portType v) ↔ ¬ Endless v := by
  unfold readEdge
  cases htarget : targetName? v with
  | none =>
    refine iff_of_true (succeeds_ok _) fun h => ?_
    have hsome := h.1
    rw [htarget] at hsome
    cases hsome
  | some name =>
    rw [succeeds_map_iff]
    cases v with
    | object fields =>
      rw [edgeIndex]
      cases hindex : ["index", "targetInputIndex"].findSome? fun name => Table.get? (.text name) fields with
      | none =>
        refine iff_of_true (succeeds_ok _) ?_
        rintro ⟨-, _, s, ⟨⟩, hs⟩
        rw [hindex] at hs
        cases hs
      | some v =>
        show Succeeds (inputIndex v) ↔ _
        rw [succeeds_inputIndex_iff]
        constructor
        · rintro h ⟨-, _, s, ⟨⟩, hs⟩
          rw [hindex] at hs
          cases hs
          exact h s rfl
        · rintro h s rfl
          exact h ⟨by rw [htarget]; rfl, fields, s, rfl, hindex⟩
    | _ =>
      refine iff_of_true (succeeds_ok _) ?_
      rintro ⟨-, fields, s, hv, -⟩
      cases hv

theorem succeeds_readPort_iff {portType : String} {items : List Value} :
    Succeeds (readPort portType items) ↔ ∀ v ∈ items, ¬ Endless v := by
  induction items with
  | nil => simp [readPort, succeeds_ok]
  | cons v items ih =>
    rw [readPort, List.forall_mem_cons, ← ih, ← succeeds_readEdge_iff portType, succeeds_bind_iff]
    constructor
    · rintro ⟨e, he, h⟩
      obtain ⟨rest, hrest, -⟩ := succeeds_bind_iff.1 h
      exact ⟨⟨e, he⟩, rest, hrest⟩
    · rintro ⟨⟨e, he⟩, rest, hrest⟩
      exact ⟨e, he, succeeds_bind_iff.2 ⟨rest, hrest, succeeds_ok _⟩⟩

theorem succeeds_readEntry_iff {portType : String} {v : Value} :
    Succeeds (readEntry portType v) ↔
      ∀ w ∈ (match v with | .list port => port | v => [v] : List Value), ¬ Endless w := by
  cases v <;> exact succeeds_readPort_iff

theorem succeeds_readPorts_iff (portType : String) {v : Value} :
    Succeeds (readPorts portType v) ↔ ∀ w ∈ portDescriptors v, ¬ Endless w := by
  cases v with
  | list items =>
    rw [readPorts, portDescriptors]
    split
    · rw [succeeds_map_iff, succeeds_readPort_iff]
    · simp only [succeeds_mapM_iff, succeeds_readEntry_iff, List.forall_mem_flatMap]
  | text s =>
    rw [readPorts, readPorts.singlePort, succeeds_map_iff, succeeds_readEdge_iff, portDescriptors,
      List.forall_mem_singleton]
  | object fields =>
    rw [readPorts, readPorts.singlePort, succeeds_map_iff, succeeds_readEdge_iff, portDescriptors,
      List.forall_mem_singleton]
  | _ => exact iff_of_true (succeeds_ok _) (by simp [portDescriptors])

theorem succeeds_readPortTable_iff {done : PortTable} {entries : List (Key × Value)} :
    Succeeds (readPortTable done entries) ↔ ∀ e ∈ entries, ∀ w ∈ portDescriptors e.2, ¬ Endless w := by
  induction entries generalizing done with
  | nil => simp [readPortTable, succeeds_ok]
  | cons e entries ih =>
    rw [readPortTable, List.forall_mem_cons, succeeds_bind_iff, ← succeeds_readPorts_iff e.1.toText]
    constructor
    · rintro ⟨ports, hports, h⟩
      exact ⟨⟨ports, hports⟩, ih.1 h⟩
    · rintro ⟨⟨ports, hports⟩, h⟩
      exact ⟨ports, hports, ih.2 h⟩

theorem succeeds_readSources_iff {done : Table Key PortTable} {entries : List (Key × Value)} :
    Succeeds (readSources done entries) ↔ ∀ e ∈ entries, ∀ w ∈ sourceDescriptors e.2, ¬ Endless w := by
  induction entries generalizing done with
  | nil => simp [readSources, succeeds_ok]
  | cons e entries ih =>
    rw [readSources, List.forall_mem_cons]
    cases hports : byPortType? e.2 with
    | none =>
      rw [ih]
      simp [sourceDescriptors, hports]
    | some byType =>
      have hsource : (∀ w ∈ sourceDescriptors e.2, ¬ Endless w) ↔ Succeeds (readPortTable [] byType) := by
        rw [succeeds_readPortTable_iff, sourceDescriptors, hports, Option.getD_some, List.forall_mem_flatMap]
      show Succeeds (readPortTable [] byType >>= _) ↔ _
      rw [succeeds_bind_iff, hsource]
      constructor
      · rintro ⟨ports, hports, h⟩
        exact ⟨⟨ports, hports⟩, ih.1 h⟩
      · rintro ⟨⟨ports, hports⟩, h⟩
        exact ⟨ports, hports, ih.2 h⟩

theorem succeeds_normalize_iff {v : Value} : Succeeds (normalize v) ↔ ∀ w ∈ descriptors v, ¬ Endless w := by
  cases v with
  | object fields => rw [normalize, succeeds_map_iff, succeeds_readSources_iff, descriptors, List.forall_mem_flatMap]
  | _ => exact iff_of_true (succeeds_ok _) (by simp [descriptors])

/-- **Connections are read unless some edge in them has an infinite input.** -/
theorem succeeds_load_iff {v : Value} : Succeeds (load v) ↔ ∀ w ∈ descriptors v, ¬ Endless w := by
  rw [load, succeeds_map_iff, succeeds_normalize_iff]

end Connections

end WorkflowGraph
