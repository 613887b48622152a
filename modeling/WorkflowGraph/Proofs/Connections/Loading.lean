import WorkflowGraph.Proofs.Connections.NormalForm
/-
Loading connections and writing them back. What is written is the normal form without the sources that have no port
type, and with every descriptor once on its port. All else stays where it is: sources, port types, ports without edges,
and the edges of a port.

- `toValue_mapPorts_once`: leaving out repeated edges, seen on the written value.
- `load_tidied`: loading and writing back.
-/
namespace WorkflowGraph

namespace Value

/-- a list with its items changed -/
def mapItems (f : Value → Value) : Value → Value
  | .list items => .list (items.map f)
  | v => v

/-- an object with the values of its fields changed -/
def mapFields (f : Value → Value) : Value → Value
  | .object fields => .object (fields.map fun e => (e.1, f e.2))
  | v => v

/-- a list without the items that equal an earlier one -/
def withoutRepeats : Value → Value
  | .list items => .list items.eraseDups
  | v => v

/-- an object without the fields that hold nothing -/
def withoutEmpty : Value → Value
  | .object fields => .object (fields.filter fun e => e.2.isFilled)
  | v => v

end Value

namespace Connections

/-- an adjacency without the sources that have no port type, and with every descriptor of a port once -/
def tidied (adjacency : Value) : Value :=
  adjacency.withoutEmpty.mapFields (Value.mapFields (Value.mapItems Value.withoutRepeats))

/-! ## Ports -/

/-- edges are written alike exactly when they are the same -/
theorem toValue_beq_toValue (e e' : Edge) : (e.toValue == e'.toValue) = (e == e') := by
  obtain ⟨node, type, index⟩ := e
  obtain ⟨node', type', index'⟩ := e'
  show ((Value.text node == Value.text node') && ((Value.text type == Value.text type') &&
    ((Value.int index == Value.int index') && true))) = decide _
  rw [Value.text_beq_text, Value.text_beq_text, Value.int_beq_int]
  simp

/-- a list keeps its distinct items when they are changed into ones that are equal only if they were -/
theorem eraseDups_map {α β : Type} [BEq α] [BEq β] {f : α → β} (h : ∀ a b, (f a == f b) = (a == b)) (l : List α) :
    (l.map f).eraseDups = l.eraseDups.map f := by
  -- the rest of a list without its head is shorter, but no tail of it
  induction hn : l.length using Nat.strong_induction_on generalizing l with
  | _ n ih =>
    cases l with
    | nil => rfl
    | cons a l =>
      have hshort : (l.filter fun b => !b == a).length < n := by
        have hle := List.length_filter_le (fun b => !b == a) l
        rw [List.length_cons] at hn
        omega
      have hfilter : (l.map f).filter (fun b => !b == f a) = (l.filter fun b => !b == a).map f := by
        rw [List.filter_map]
        simp only [Function.comp_def, h]
      rw [List.map_cons, List.eraseDups_cons, hfilter, ih _ hshort _ rfl, List.eraseDups_cons, List.map_cons]

/-- the edges that a port gets one by one are those it does not hold yet, each at its first place -/
theorem foldl_insertEdge (p q : Port) :
    p.foldl (fun q e => insertEdge e q) q = q ++ (p.filter fun e => !q.contains e).eraseDups := by
  induction p generalizing q with
  | nil => simp [List.eraseDups]
  | cons e p ih =>
    rw [List.foldl_cons, ih]
    by_cases he : e ∈ q
    · simp [insertEdge, he]
    · have hrest : (p.filter fun x => !(q ++ [e]).contains x) =
          (p.filter fun x => !q.contains x).filter fun x => !x == e := by
        rw [List.filter_filter]
        refine List.filter_congr fun x _ => ?_
        simp [Bool.and_comm, beq_eq_decide]
      simp only [insertEdge, he, if_false, hrest]
      rw [List.filter_cons_of_pos (by simpa using he), List.eraseDups_cons, List.append_assoc]
      rfl

theorem once_eq_eraseDups (p : Port) : once p = p.eraseDups := by
  have h := foldl_insertEdge p []
  simpa [once] using h

theorem portValue_once (p : Port) : portValue (once p) = (portValue p).withoutRepeats := by
  show Value.list ((once p).map Edge.toValue) = Value.list (p.map Edge.toValue).eraseDups
  rw [once_eq_eraseDups, eraseDups_map toValue_beq_toValue]

/-! ## Adjacency -/

/-- the ports of a source without repeated edges, as they are written -/
theorem portTableValue_map_once (t : PortTable) :
    portTableValue (t.map fun y => (y.1, y.2.map once)) =
      (portTableValue t).mapFields (Value.mapItems Value.withoutRepeats) := by
  simp only [portTableValue, Value.mapFields, List.map_map, Value.object.injEq]
  refine List.map_congr_left fun y _ => ?_
  simp [Value.mapItems, portValue_once]

/-- connections without repeated edges, as they are written -/
theorem toValue_mapPorts_once (c : Connections) :
    (c.mapPorts once).toValue = c.toValue.mapFields (Value.mapFields (Value.mapItems Value.withoutRepeats)) := by
  simp only [toValue, mapPorts_table, Value.mapFields, List.map_map, Value.object.injEq]
  refine List.map_congr_left fun x _ => ?_
  simp only [Function.comp_apply, portTableValue_map_once]
  rfl

/-- a source has port types when something is written for it -/
theorem toValue_opened (c : Connections) : (opened c).toValue = c.toValue.withoutEmpty := by
  simp only [toValue, opened, Value.withoutEmpty, List.filter_map, Value.object.injEq]
  congr 1
  refine List.filter_congr fun x _ => ?_
  simp [portTableValue, Value.isFilled]

/-- **Loading loses repetitions only.** Whatever can be read can be loaded, and what is loaded is written as the normal
form without the sources that have no port type and without the descriptors that equal an earlier one on their port. -/
theorem load_tidied {raw : Value} {n : Connections} (h : normalize raw = .ok n) :
    ∃ c, load raw = .ok c ∧ c.toValue = tidied n.toValue := by
  refine ⟨rebuild n, ?_, ?_⟩
  · rw [load, h]
    rfl
  · rw [rebuild_eq (normalize_form h).1, toValue_mapPorts_once, toValue_opened]
    rfl

theorem load_tidied_looseAdjacency :
    normalize looseAdjacency = .ok looseConnections ∧
      ∃ c, load looseAdjacency = .ok c ∧ c.toValue = tidied looseConnections.toValue :=
  ⟨normalize_looseAdjacency, load_tidied normalize_looseAdjacency⟩

end Connections

end WorkflowGraph
