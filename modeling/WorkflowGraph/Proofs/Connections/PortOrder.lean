import WorkflowGraph.Proofs.Connections.Descriptors
import WorkflowGraph.Proofs.Connections.Written
/-
The order of ports. In a list of ports every entry stands for the port of its number: a list for a port with the edges
that can be read from it, null for a port without edges. Reading keeps the entries in their places, with one exception:
a list that holds no list at all is taken for a single port without its wrapper, so several nulls become one port.

- `inPlace_iff`: when the ports that are read stand in the places of their entries.
- `ports_of_normalize`: the ports of a source are those that are read from what it maps to.
- `readPorts_in_place`: when ports can be read, and where they stand.
- `readPorts_emptyOutputs`: two ports without edges that are read as one.
-/
namespace WorkflowGraph

namespace Connections

/-! ## Entries -/

/-- an entry of a list of ports that is wrapped: a list of descriptors, or null for no edges -/
def IsEntry (v : Value) : Prop := v = .null ∨ v.isList = true

/-- a port has the edges that the descriptors of an entry stand for, those without a target left out, in order -/
def Fills (portType : String) (entry : Value) (p : Port) : Prop :=
  List.Forall₂ (fun d e => readEdge portType d = .ok (some e)) ((entry.list?.getD []).filter isLegible) p

/-- as many ports as entries, each with the edges of the entry of its number -/
def InPlace (portType : String) (entries : List Value) (ports : List Port) : Prop :=
  List.Forall₂ (Fills portType) entries ports

theorem fills_null {portType : String} : Fills portType .null [] := List.Forall₂.nil

/-- what is read from descriptors is one edge for each of them that can be read -/
theorem fills_of_readPort {portType : String} {items : List Value} {p : Port} (h : readPort portType items = .ok p) :
    Fills portType (.list items) p := by
  show List.Forall₂ _ (items.filter isLegible) p
  induction items generalizing p with
  | nil =>
    cases h
    exact List.Forall₂.nil
  | cons v items ih =>
    obtain ⟨e, he, h⟩ := bind_eq_ok.1 h
    obtain ⟨rest, hrest, h⟩ := bind_eq_ok.1 h
    cases h
    cases hv : isLegible v with
    | false =>
      rw [readEdge_of_not_isLegible hv] at he
      cases he
      rw [List.filter_cons_of_neg (by simp [hv])]
      exact ih hrest
    | true =>
      obtain ⟨name, hname⟩ := Option.isSome_iff_exists.1 hv
      have hedge := he
      rw [readEdge, hname] at he
      obtain ⟨i, -, rfl⟩ := map_eq_ok.1 he
      rw [List.filter_cons_of_pos hv]
      exact List.Forall₂.cons hedge (ih hrest)

theorem fills_of_readEntry {portType : String} {v : Value} (hv : IsEntry v) {p : Port}
    (h : readEntry portType v = .ok p) : Fills portType v p := by
  rcases hv with rfl | hlist
  · cases h
    exact fills_null
  · obtain ⟨items, hitems⟩ := Option.isSome_iff_exists.1 hlist
    cases v with
    | list _ => exact fills_of_readPort h
    | _ => cases hitems

/-- nulls describe no edge -/
theorem readPort_of_nulls (portType : String) {entries : List Value} (h : ∀ v ∈ entries, v = .null) :
    readPort portType entries = .ok [] := by
  induction entries with
  | nil => rfl
  | cons v entries ih =>
    rw [List.forall_mem_cons] at h
    rw [readPort, ih h.2, h.1]
    rfl

/-- among entries it takes a list to tell that they are ports -/
theorem isFlat_iff {entries : List Value} (h : ∀ v ∈ entries, IsEntry v) :
    isFlat entries = true ↔ entries ≠ [] ∧ ∀ v ∈ entries, v = .null := by
  have hnull : (∀ v ∈ entries, v.isList = false) ↔ ∀ v ∈ entries, v = .null := by
    refine forall₂_congr fun v hv => ⟨fun hlist => ?_, fun hv => hv ▸ rfl⟩
    exact (h v hv).resolve_right (Bool.eq_false_iff.1 hlist)
  simp only [isFlat, Bool.and_eq_true, Bool.not_eq_true', List.isEmpty_eq_false_iff, List.all_eq_true, hnull]

/-! ## Ports -/

/-- several entries, none of which is a list -/
def Undecided (entries : List Value) : Prop := 2 ≤ entries.length ∧ ∀ v ∈ entries, v = .null

theorem readPorts_of_undecided {portType : String} {entries : List Value} (h : Undecided entries) :
    readPorts portType (.list entries) = .ok [[]] := by
  have hflat : isFlat entries = true := by
    refine (isFlat_iff fun v hv => Or.inl (h.2 v hv)).2 ⟨?_, h.2⟩
    exact List.ne_nil_of_length_pos (Nat.lt_of_lt_of_le Nat.zero_lt_two h.1)
  rw [readPorts, if_pos hflat, readPort_of_nulls portType h.2]
  rfl

/-- ports stand in the places of their entries unless these are several nulls -/
theorem inPlace_iff {portType : String} {entries : List Value} {ports : List Port} (hentries : ∀ v ∈ entries, IsEntry v)
    (h : readPorts portType (.list entries) = .ok ports) : InPlace portType entries ports ↔ ¬ Undecided entries := by
  constructor
  · intro hplace hnulls
    rw [readPorts_of_undecided hnulls] at h
    cases h
    have hlength : entries.length = 1 := hplace.length_eq
    have hmany := hnulls.1
    omega
  · intro hnulls
    rw [readPorts] at h
    split at h
    · -- a flat list of entries is a single null
      rename_i hflat
      obtain ⟨hne, hall⟩ := (isFlat_iff hentries).1 hflat
      rw [readPort_of_nulls portType hall] at h
      cases h
      have hfew : entries.length < 2 := Nat.lt_of_not_le fun hmany => hnulls ⟨hmany, hall⟩
      have hsome : 0 < entries.length := List.length_pos_of_ne_nil hne
      obtain ⟨v, rfl⟩ := List.length_eq_one_iff.1 (by omega : entries.length = 1)
      rw [hall v (List.mem_singleton_self v)]
      exact List.Forall₂.cons fills_null List.Forall₂.nil
    · refine ((List.forall₂_and_left _ _).2 ⟨hentries, forall₂_of_mapM h⟩).imp ?_
      exact fun v p hread => fills_of_readEntry hread.1 hread.2

/-- entries can be read unless one of them has an edge whose input is infinite -/
theorem succeeds_readPorts_entries_iff {portType : String} {entries : List Value} (hentries : ∀ v ∈ entries, IsEntry v) :
    Succeeds (readPorts portType (.list entries)) ↔ ∀ v ∈ entries, ∀ d ∈ v.list?.getD [], ¬ Endless d := by
  have hnull : ¬ Endless .null := by
    rintro ⟨-, fields, s, hfields, -⟩
    cases hfields
  rw [succeeds_readPorts_iff, portDescriptors]
  split
  · rename_i hflat
    obtain ⟨-, hall⟩ := (isFlat_iff hentries).1 hflat
    refine iff_of_true (fun v hv => hall v hv ▸ hnull) fun v hv d hd => ?_
    rw [hall v hv] at hd
    cases hd
  · rw [List.forall_mem_flatMap]
    refine forall₂_congr fun v hv => ?_
    rcases hentries v hv with rfl | hlist
    · exact iff_of_true (List.forall_mem_singleton.2 hnull) fun d hd => absurd hd List.not_mem_nil
    · cases v with
      | list items => rfl
      | _ => cases hlist

/-! ## Connections -/

/-- an object maps a key to a value, and nothing that reads the same to another one after that -/
def Maps (fields : Fields) (key : Key) (v : Value) : Prop :=
  ∃ before after, fields = before ++ (key, v) :: after ∧ ∀ e ∈ after, e.1.toText ≠ key.toText

/-- what a run leaves at a key is what the last step that concerns the key has left there -/
theorem get?_foldlM_last {α β ε κ : Type} [BEq κ] {f : Table κ β → α → Except ε (Table κ β)} {before after : List α}
    {a : α} {k : κ} {t t' : Table κ β} (h : (before ++ a :: after).foldlM f t = .ok t')
    (hafter : ∀ b ∈ after, ∀ u u', f u b = .ok u' → Table.get? k u' = Table.get? k u) :
    ∃ u u', f u a = .ok u' ∧ Table.get? k t' = Table.get? k u' := by
  rw [List.foldlM_append] at h
  obtain ⟨u, -, h⟩ := bind_eq_ok.1 h
  rw [List.foldlM_cons] at h
  obtain ⟨u', hu', h⟩ := bind_eq_ok.1 h
  refine ⟨u, u', hu', ?_⟩
  exact foldlM_induction (P := fun t => Table.get? k t = Table.get? k u') h rfl
    fun s b t hb hstep hs => (hafter b hb s t hstep).trans hs

theorem get?_of_readPortTable {fields : Fields} {key : Key} {v : Value} {t : PortTable}
    (h : readPortTable [] fields = .ok t) (hmaps : Maps fields key v) :
    ∃ ports, readPorts key.toText v = .ok ports ∧ Table.get? key.toText t = some ports := by
  obtain ⟨before, after, rfl, hafter⟩ := hmaps
  rw [readPortTable_eq] at h
  obtain ⟨u, u', hread, hget⟩ := get?_foldlM_last (k := key.toText) h fun e he s s' hstep => by
    obtain ⟨ports, -, rfl⟩ := map_eq_ok.1 hstep
    rw [Table.get?_put, if_neg (by simpa using hafter e he)]
  obtain ⟨ports, hports, rfl⟩ := map_eq_ok.1 hread
  refine ⟨ports, hports, hget.trans ?_⟩
  rw [Table.get?_put, BEq.rfl]
  rfl

/-- one source read into a table, unless it describes no ports -/
def putSource (t : Table Key PortTable) (e : Key × Value) : Except Fault (Table Key PortTable) :=
  match byPortType? e.2 with
  | none => .ok t
  | some byType => (readPortTable [] byType).map fun ports => Table.put (.text e.1.toText) ports t

theorem readSources_eq_foldlM (t : Table Key PortTable) (entries : List (Key × Value)) :
    readSources t entries = entries.foldlM putSource t := by
  induction entries generalizing t with
  | nil => rfl
  | cons e entries ih =>
    rw [readSources, List.foldlM_cons, putSource]
    cases byPortType? e.2 with
    | none => exact ih t
    | some byType =>
      show (readPortTable [] byType >>= _) = (readPortTable [] byType).map _ >>= _
      cases readPortTable [] byType with
      | error fault => rfl
      | ok ports => exact ih _

/-- the ports of a source and type are those that are read from what the source maps the type to -/
theorem ports_of_normalize {sources byType : Fields} {c : Connections} (h : normalize (.object sources) = .ok c)
    {source portType : Key} {v ports : Value} (hsource : Maps sources source v) (hbyType : byPortType? v = some byType)
    (hports : Maps byType portType ports) :
    readPorts portType.toText ports = .ok (c.ports (.text source.toText) portType.toText) := by
  obtain ⟨t, ht, rfl⟩ := map_eq_ok.1 h
  obtain ⟨before, after, rfl, hafter⟩ := hsource
  rw [readSources_eq_foldlM] at ht
  obtain ⟨u, u', hread, hget⟩ := get?_foldlM_last (k := Key.text source.toText) ht fun e he s s' hstep => by
    rw [putSource] at hstep
    split at hstep
    · cases hstep
      rfl
    · obtain ⟨ports, -, rfl⟩ := map_eq_ok.1 hstep
      rw [Table.get?_put, Key.text_beq_text, if_neg (by simpa using hafter e he)]
  rw [putSource, hbyType] at hread
  obtain ⟨table, htable, rfl⟩ := map_eq_ok.1 hread
  obtain ⟨read, hread, hfound⟩ := get?_of_readPortTable htable hports
  rw [Table.get?_put, BEq.rfl, if_pos rfl] at hget
  rw [Connections.ports, portTable, hget, Option.getD_some, hfound, Option.getD_some]
  exact hread

/-! ## Places -/

/-- **Ports stay in their places unless nothing tells that they are ports.** A list of entries, each a list or null, can
be read unless one of its edges has an infinite input. The ports that are read, of connections as well, are as many as
there are entries, each with the edges of the entry of its number, except that several nulls and nothing else are read
as one port without edges. -/
theorem readPorts_in_place {entries : List Value} (hentries : ∀ v ∈ entries, IsEntry v) :
    (∀ portType, Succeeds (readPorts portType (.list entries)) ↔ ∀ v ∈ entries, ∀ d ∈ v.list?.getD [], ¬ Endless d) ∧
      (∀ portType ports, readPorts portType (.list entries) = .ok ports →
        (InPlace portType entries ports ↔ ¬ Undecided entries) ∧ (Undecided entries → ports = [[]])) ∧
      ∀ sources c source v byType portType, normalize (.object sources) = .ok c → Maps sources source v →
        byPortType? v = some byType → Maps byType portType (.list entries) →
          readPorts portType.toText (.list entries) = .ok (c.ports (.text source.toText) portType.toText) := by
  refine ⟨fun _ => succeeds_readPorts_entries_iff hentries, fun portType ports h => ⟨inPlace_iff hentries h, ?_⟩, ?_⟩
  · intro hnulls
    rw [readPorts_of_undecided hnulls] at h
    exact (Except.ok.inj h).symm
  · exact fun sources c source v byType portType h hsource hbyType => ports_of_normalize h hsource hbyType

/-- the outputs of a switch: nothing for the first rule, an edge and something that is none for the second, and no edge
for the third -/
def switchOutputs : List Value := [.null, .list [.text "Notify", .int 5], .list []]

/-- the ports that they describe -/
def switchPorts : List Port := [[], [.plain "Notify" mainType 0], []]

theorem readPorts_in_place_switchOutputs :
    (∀ v ∈ switchOutputs, IsEntry v) ∧ InPlace mainType switchOutputs switchPorts ∧
      ∃ c, normalize (.object [(.text "Route", .list switchOutputs)]) = .ok c ∧
        readPorts mainType (.list switchOutputs) = .ok (c.ports (.text "Route") mainType) := by
  have hentries : ∀ v ∈ switchOutputs, IsEntry v := by
    intro v hv
    fin_cases hv
    · exact Or.inl rfl
    · exact Or.inr rfl
    · exact Or.inr rfl
  have hread : readPorts mainType (.list switchOutputs) = .ok switchPorts := rfl
  obtain ⟨-, hplaces, hnormal⟩ := readPorts_in_place hentries
  refine ⟨hentries, (hplaces mainType _ hread).1.2 ?_, _, rfl, ?_⟩
  · rintro ⟨-, hnulls⟩
    cases hnulls (.list []) (by simp [switchOutputs])
  · have hsource : Maps [(.text "Route", .list switchOutputs)] (.text "Route") (.list switchOutputs) :=
      ⟨[], [], rfl, by simp⟩
    exact hnormal _ _ _ _ _ (.text mainType) rfl hsource rfl ⟨[], [], rfl, by simp⟩

/-- **Two ports without edges are read as one**: nulls alone do not tell a list of ports from a port. -/
theorem readPorts_emptyOutputs :
    (∀ v ∈ [Value.null, .null], IsEntry v) ∧ readPorts mainType (.list [.null, .null]) = .ok [[]] ∧
      ¬ InPlace mainType [.null, .null] [[]] := by
  refine ⟨by simp [IsEntry], rfl, fun hplace => ?_⟩
  have hlength : 2 = 1 := hplace.length_eq
  cases hlength

end Connections

end WorkflowGraph
