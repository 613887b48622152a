import WorkflowGraph.Proofs.Connections.Loading
import WorkflowGraph.Proofs.Connections.Lines
import WorkflowGraph.Proofs.Connections.Ports
/-
Connections that are written in full: an object of objects of lists of lists, as their shape asks. Reading them loses
the descriptors without a target that can be read, and no others.

- `normalize_legible`: connections are read as if those descriptors were not there.
- `inFull_of_load`: every target that can be read is a target of the connections that are loaded.
- `ends_of_load`: edges that are loaded have no other ends than those that are read.
- `inFull_of_shape`, `adjacency_violations_legible`: what the shape of connections says about their descriptors.
-/
namespace WorkflowGraph

namespace Value

theorem ListOf.imp {P Q : Value → Prop} {v : Value} (h : v.ListOf P) (hPQ : ∀ w, P w → Q w) : v.ListOf Q := by
  obtain ⟨items, rfl, hitems⟩ := h
  exact ⟨items, rfl, fun w hw => hPQ w (hitems w hw)⟩

theorem ListOf.mapItems {P Q : Value → Prop} {f : Value → Value} {v : Value} (h : v.ListOf P)
    (hf : ∀ w, P w → Q (f w)) : (v.mapItems f).ListOf Q := by
  obtain ⟨items, rfl, hitems⟩ := h
  exact ⟨_, rfl, List.forall_mem_map.2 fun w hw => hf w (hitems w hw)⟩

theorem ObjectOf.imp {P Q : String → Value → Prop} {v : Value} (h : v.ObjectOf P) (hPQ : ∀ name w, P name w → Q name w) :
    v.ObjectOf Q := by
  obtain ⟨fields, rfl, hd, hfields⟩ := h
  exact ⟨fields, rfl, hd, fun e he => (hfields e he).imp fun name hname => ⟨hname.1, hPQ _ _ hname.2⟩⟩

theorem ObjectOf.mapFields {P Q : String → Value → Prop} {f : Value → Value} {v : Value} (h : v.ObjectOf P)
    (hf : ∀ name w, P name w → Q name (f w)) : (v.mapFields f).ObjectOf Q := by
  obtain ⟨fields, rfl, hd, hfields⟩ := h
  refine ⟨_, rfl, Table.distinct_map (fun e => f e.2) hd, List.forall_mem_map.2 fun e he => ?_⟩
  exact (hfields e he).imp fun name hname => ⟨hname.1, hf _ _ hname.2⟩

/-- a list with some of its items only -/
def filterItems (p : Value → Bool) : Value → Value
  | .list items => .list (items.filter p)
  | v => v

theorem ListOf.filterItems {P : Value → Prop} {v : Value} (h : v.ListOf P) (p : Value → Bool) :
    (v.filterItems p).ListOf fun w => P w ∧ p w = true := by
  obtain ⟨items, rfl, hitems⟩ := h
  refine ⟨_, rfl, fun w hw => ?_⟩
  rw [List.mem_filter] at hw
  exact ⟨hitems w hw.1, hw.2⟩

end Value

namespace Connections

/-! ## Form -/

/-- an object of objects whose fields are lists of lists of values of a kind, the descriptors -/
def InFull (P : Value → Prop) (v : Value) : Prop :=
  v.ObjectOf fun _ => Value.ObjectOf fun _ => Value.ListOf (Value.ListOf P)

theorem InFull.imp {P Q : Value → Prop} {v : Value} (h : InFull P v) (hPQ : ∀ w, P w → Q w) : InFull Q v :=
  Value.ObjectOf.imp h fun _ _ hs => hs.imp fun _ _ ht => ht.imp fun _ hp => hp.imp hPQ

/-- whether a target can be read from a descriptor -/
def isLegible (v : Value) : Bool := (targetName? v).isSome

/-- the ports of a source without the descriptors from which no target can be read -/
def legibleSource : Value → Value := Value.mapFields (Value.mapItems (Value.filterItems isLegible))

/-- connections that are written in full, without those descriptors -/
def legible (v : Value) : Value := v.mapFields legibleSource

/-- what is kept is written in full, and every descriptor that is kept can be read -/
theorem InFull.legible {P : Value → Prop} {v : Value} (h : InFull P v) :
    InFull (fun d => P d ∧ isLegible d = true) (legible v) :=
  Value.ObjectOf.mapFields h fun _ _ hs => hs.mapFields fun _ _ ht => ht.mapItems fun _ hp => hp.filterItems isLegible

theorem exists_fields_of_objectOf {P : String → Value → Prop} {fields : Fields}
    (h : ∀ e ∈ fields, ∃ name, e.1 = .text name ∧ e.2.ObjectOf P) : ∀ e ∈ fields, ∃ inner, e.2 = .object inner := by
  intro e he
  obtain ⟨_, -, inner, hinner, -⟩ := h e he
  exact ⟨inner, hinner⟩

/-! ## Reading one entry after another -/

theorem readPortTable_eq (done : PortTable) (entries : List (Key × Value)) :
    readPortTable done entries = entries.foldlM
      (fun t e => (readPorts e.1.toText e.2).map fun ports => Table.put e.1.toText ports t) done := by
  induction entries generalizing done with
  | nil => rfl
  | cons e entries ih =>
    rw [readPortTable, List.foldlM_cons]
    cases readPorts e.1.toText e.2 with
    | error fault => rfl
    | ok ports => exact ih _

/-- the ports of a source that maps to an object -/
def readSource (v : Value) : Except Fault PortTable := readPortTable [] (v.object?.getD [])

theorem readSources_eq (done : Table Key PortTable) {entries : List (Key × Value)}
    (h : ∀ e ∈ entries, ∃ fields, e.2 = .object fields) :
    readSources done entries = entries.foldlM
      (fun t e => (readSource e.2).map fun ports => Table.put (Key.text e.1.toText) ports t) done := by
  induction entries generalizing done with
  | nil => rfl
  | cons e entries ih =>
    obtain ⟨⟨fields, hfields⟩, hrest⟩ := List.forall_mem_cons.1 h
    rw [readSources, List.foldlM_cons, hfields]
    show (readPortTable [] fields >>= _) = (readPortTable [] fields).map _ >>= _
    cases readPortTable [] fields with
    | error fault => rfl
    | ok ports => exact ih _ hrest

/-- values that are written into a table under different keys are all found there -/
theorem get?_foldlM_put {α β ε κ : Type} [BEq κ] [EquivBEq κ] {key : α → κ} {read : α → Except ε β} {l : List α}
    {t t' : Table κ β} (h : l.foldlM (fun t a => (read a).map fun v => Table.put (key a) v t) t = .ok t')
    (hd : l.Pairwise fun a b => (key a == key b) = false) :
    (∀ k, (∀ a ∈ l, (key a == k) = false) → Table.get? k t' = Table.get? k t) ∧
      ∀ a ∈ l, ∃ v, read a = .ok v ∧ Table.get? (key a) t' = some v := by
  induction l generalizing t with
  | nil =>
    cases h
    simp
  | cons a l ih =>
    rw [List.foldlM_cons] at h
    obtain ⟨u, hu, h⟩ := bind_eq_ok.1 h
    obtain ⟨v, hv, rfl⟩ := map_eq_ok.1 hu
    obtain ⟨hfirst, hrest⟩ := List.pairwise_cons.1 hd
    obtain ⟨hothers, hwritten⟩ := ih h hrest
    constructor
    · intro k hk
      rw [List.forall_mem_cons] at hk
      rw [hothers k hk.2, Table.get?_put, hk.1]
      rfl
    · refine List.forall_mem_cons.2 ⟨⟨v, hv, ?_⟩, hwritten⟩
      rw [hothers (key a) fun b hb => BEq.comm.trans (hfirst b hb), Table.get?_put, BEq.rfl]
      rfl

/-! ## Descriptors without a target -/

theorem readEdge_of_not_isLegible {portType : String} {v : Value} (h : isLegible v = false) :
    readEdge portType v = .ok none := by
  rw [readEdge, Option.not_isSome_iff_eq_none.1 (Bool.eq_false_iff.1 h)]

theorem readPort_filter (portType : String) (items : List Value) :
    readPort portType (items.filter isLegible) = readPort portType items := by
  induction items with
  | nil => rfl
  | cons v items ih =>
    cases hv : isLegible v with
    | true => rw [List.filter_cons_of_pos hv, readPort, readPort, ih]
    | false =>
      rw [List.filter_cons_of_neg (by simp [hv]), ih, readPort, readEdge_of_not_isLegible hv]
      cases readPort portType items <;> rfl

theorem readPorts_mapItems {v : Value} {P : Value → Prop} (h : v.ListOf (Value.ListOf P)) (portType : String) :
    readPorts portType (v.mapItems (Value.filterItems isLegible)) = readPorts portType v := by
  obtain ⟨ports, rfl, hports⟩ := h
  have hkept : ∀ p ∈ ports.map (Value.filterItems isLegible), p.ListOf fun d => P d ∧ isLegible d = true :=
    List.forall_mem_map.2 fun p hp => (hports p hp).filterItems isLegible
  simp only [Value.mapItems, readPorts, isFlat_of_listOf hports, isFlat_of_listOf hkept, Bool.false_eq_true, if_false]
  rw [List.mapM_map]
  refine mapM_congr fun p hp => ?_
  obtain ⟨items, rfl, -⟩ := hports p hp
  exact readPort_filter portType items

/-- **Descriptors without a target that can be read count for nothing** in connections that are written in full. -/
theorem normalize_legible {v : Value} {P : Value → Prop} (h : InFull P v) : normalize (legible v) = normalize v := by
  have source : ∀ w : Value, (w.ObjectOf fun _ => Value.ListOf (Value.ListOf P)) →
      readSource (legibleSource w) = readSource w := by
    rintro _ ⟨byType, rfl, -, hbyType⟩
    simp only [readSource, legibleSource, Value.mapFields, Value.object?, Option.getD_some, readPortTable_eq, List.foldlM_map]
    refine foldlM_congr (fun e he t => ?_) []
    obtain ⟨_, -, hports⟩ := hbyType e he
    rw [readPorts_mapItems hports]
  obtain ⟨sources, rfl, -, hsources⟩ := h
  have hobjects := exists_fields_of_objectOf hsources
  have hkept : ∀ e ∈ sources.map fun e => (e.1, legibleSource e.2), ∃ fields, e.2 = .object fields := by
    refine List.forall_mem_map.2 fun e he => ?_
    obtain ⟨fields, hfields⟩ := hobjects e he
    rw [hfields]
    exact ⟨_, rfl⟩
  rw [legible, Value.mapFields, normalize, normalize, readSources_eq [] hkept, readSources_eq [] hobjects, List.foldlM_map]
  refine congrArg _ (foldlM_congr (fun e he t => ?_) [])
  obtain ⟨_, -, hports⟩ := hsources e he
  rw [source e.2 hports]

/-! ## Descriptors with a target -/

/-- a descriptor with a target is read as an edge to it -/
theorem exists_edge_of_readPort {portType : String} {items : List Value} {p : Port}
    (h : readPort portType items = .ok p) {d : Value} (hd : d ∈ items) {name : String}
    (hname : targetName? d = some name) : ∃ e ∈ p, e.node = name := by
  induction items generalizing p with
  | nil => cases hd
  | cons v items ih =>
    obtain ⟨e, he, h⟩ := bind_eq_ok.1 h
    obtain ⟨rest, hrest, h⟩ := bind_eq_ok.1 h
    cases h
    rcases List.mem_cons.1 hd with rfl | hd
    · rw [readEdge, hname] at he
      obtain ⟨i, -, rfl⟩ := map_eq_ok.1 he
      exact ⟨_, List.mem_append_left _ (List.mem_singleton_self _), rfl⟩
    · obtain ⟨e', he', hnode⟩ := ih hrest hd
      exact ⟨e', List.mem_append_right _ he', hnode⟩

theorem listOf_of_readPorts {portType : String} {v : Value} {l : List Port} {P : Value → Prop}
    (h : readPorts portType v = .ok l) (hv : v.ListOf (Value.ListOf P)) :
    v.ListOf (Value.ListOf fun d => P d ∧ ∀ name, targetName? d = some name → LeadTo name l) := by
  obtain ⟨ports, rfl, hports⟩ := hv
  simp only [readPorts, isFlat_of_listOf hports, Bool.false_eq_true, if_false] at h
  refine ⟨ports, rfl, fun p hp => ?_⟩
  obtain ⟨q, hq, hread⟩ := exists_mem_of_mapM h hp
  obtain ⟨items, rfl, hitems⟩ := hports p hp
  refine ⟨items, rfl, fun d hd => ⟨hitems d hd, fun name hname => ?_⟩⟩
  exact ⟨q, hq, exists_edge_of_readPort hread hd hname⟩

/-- the entries of an object are different texts, which is all that a table needs to keep them apart -/
theorem pairwise_toText {P : String → Value → Prop} {fields : Fields} (hd : Table.Distinct fields)
    (h : ∀ e ∈ fields, ∃ name, e.1 = .text name ∧ P name e.2) :
    fields.Pairwise fun a b => a.1.toText ≠ b.1.toText := by
  refine hd.imp_of_mem fun {a b} ha hb hab => ?_
  obtain ⟨s, hs, -⟩ := h a ha
  obtain ⟨t, ht, -⟩ := h b hb
  rw [hs, ht, Key.text_beq_text] at hab
  rw [hs, ht]
  exact of_decide_eq_false hab

theorem objectOf_of_readSource {v : Value} {t : PortTable} {P : Value → Prop} (h : readSource v = .ok t)
    (hv : v.ObjectOf fun _ => Value.ListOf (Value.ListOf P)) :
    v.ObjectOf fun _ => Value.ListOf (Value.ListOf fun d =>
      P d ∧ ∀ name, targetName? d = some name → ∃ y ∈ t, LeadTo name y.2) := by
  obtain ⟨byType, rfl, hd, htypes⟩ := hv
  rw [readSource, Value.object?, Option.getD_some, readPortTable_eq] at h
  obtain ⟨-, hread⟩ := get?_foldlM_put h ((pairwise_toText hd htypes).imp fun hab => by simpa using hab)
  refine ⟨byType, rfl, hd, fun e he => ?_⟩
  obtain ⟨l, hl, hget⟩ := hread e he
  obtain ⟨k, -, hk⟩ := Table.exists_mem_of_get? hget
  obtain ⟨portType, hportType, hports⟩ := htypes e he
  refine ⟨portType, hportType, (listOf_of_readPorts hl hports).imp fun _ hp => hp.imp fun d hd => ⟨hd.1, ?_⟩⟩
  exact fun name hname => ⟨_, hk, hd.2 name hname⟩

theorem inFull_of_readSources {sources : Fields} {t : Table Key PortTable} {P : Value → Prop}
    (h : readSources [] sources = .ok t) (hv : InFull P (.object sources)) :
    InFull (fun d => P d ∧ ∀ name, targetName? d = some name → ∃ x ∈ t, ∃ y ∈ x.2, LeadTo name y.2)
      (.object sources) := by
  obtain ⟨_, ⟨⟩, hd, hsources⟩ := hv
  rw [readSources_eq [] (exists_fields_of_objectOf hsources)] at h
  obtain ⟨-, hread⟩ := get?_foldlM_put h
    ((pairwise_toText hd hsources).imp fun hab => by simpa [Key.text_beq_text] using hab)
  refine ⟨sources, rfl, hd, fun e he => ?_⟩
  obtain ⟨ports, hports, hget⟩ := hread e he
  obtain ⟨k, -, hk⟩ := Table.exists_mem_of_get? hget
  obtain ⟨source, hsource, htypes⟩ := hsources e he
  refine ⟨source, hsource, (objectOf_of_readSource hports htypes).imp fun _ _ hl =>
    hl.imp fun _ hp => hp.imp fun d hd => ⟨hd.1, fun name hname => ⟨_, hk, hd.2 name hname⟩⟩⟩

/-- every target on the ports of connections that were read is one of those that they are loaded with -/
theorem mem_targets_rebuild {n : Connections} (h : Keyed n) {x : Key × PortTable} (hx : x ∈ n.table)
    {y : String × List Port} (hy : y ∈ x.2) {name : String} (hname : LeadTo name y.2) :
    name ∈ (rebuild n).targets := by
  obtain ⟨p, hp, e, he, rfl⟩ := hname
  have hfilled : x.2.isEmpty = false := by simpa using List.ne_nil_of_mem hy
  have hopened : x ∈ (opened n).table := List.mem_filter.2 ⟨hx, by simp [hfilled]⟩
  rw [rebuild_eq h]
  have htargets := eachPort_targets ((opened n).mapPorts once)
  rw [EachPort, mapPorts_table] at htargets
  exact htargets _ (List.mem_map_of_mem hopened) _ (List.mem_map_of_mem hy) _ (List.mem_map_of_mem hp) e
    (mem_once.2 he)

/-- **No target is lost**: what is written in full is loaded with every target that can be read. -/
theorem inFull_of_load {v : Value} {c : Connections} {P : Value → Prop} (h : InFull P v) (hload : load v = .ok c) :
    InFull (fun d => P d ∧ ∀ name, targetName? d = some name → name ∈ c.targets) v := by
  obtain ⟨n, hn, rfl⟩ := map_eq_ok.1 hload
  have hkeyed := (normalize_form hn).1
  obtain ⟨sources, rfl, hd, hsources⟩ := h
  obtain ⟨t, ht, rfl⟩ := map_eq_ok.1 hn
  refine (inFull_of_readSources ht ⟨sources, rfl, hd, hsources⟩).imp fun d hd => ⟨hd.1, fun name hname => ?_⟩
  obtain ⟨x, hx, y, hy, hlead⟩ := hd.2 name hname
  exact mem_targets_rebuild hkeyed hx hy hlead

/-- **No end is invented**: the edges that are loaded have sources and targets of what is read. -/
theorem ends_of_load {v : Value} {n c : Connections} (hn : normalize v = .ok n) (hc : load v = .ok c) {l : Link}
    (hl : l ∈ c.links) : l.source ∈ n.sources ∧ l.edge.node ∈ n.targets := by
  rw [load, hn] at hc
  cases hc
  have hkeyed := (normalize_form hn).1
  rw [rebuild_eq hkeyed] at hl
  obtain ⟨x, hx, hsource, y, hy, -, he⟩ := mem_links_iff.1 hl
  rw [mapPorts_table] at hx
  obtain ⟨x', hx', rfl⟩ := List.mem_map.1 hx
  obtain ⟨y', hy', rfl⟩ := List.mem_map.1 hy
  have hwritten : x' ∈ n.table := List.mem_of_mem_filter hx'
  have hkey : x'.1 ∈ n.sources := List.mem_map_of_mem hwritten
  refine ⟨hsource ▸ hkey, ?_⟩
  cases hport : (y'.2.map once)[l.port]? with
  | none => simp [hport] at he
  | some p =>
    rw [hport, Option.getD_some] at he
    obtain ⟨p', hp', rfl⟩ := List.mem_map.1 (List.mem_of_getElem? hport)
    exact n.eachPort_targets x' hwritten y' hy' p' hp' l.edge (mem_once.1 he)

/-! ## Shape -/

/-- a descriptor of the right shape -/
def IsShaped (d : Value) : Prop := Schema.edge.violations [] d = []

theorem portList_violations_of_listOf {v : Value} (h : v.ListOf (Value.ListOf IsShaped)) (path : List PathStep) :
    Schema.portList.violations path v = [] := by
  obtain ⟨ports, rfl, hports⟩ := h
  refine list_violations fun p hp path => ?_
  obtain ⟨items, rfl, hitems⟩ := hports p hp
  exact list_violations fun d hd path => violations_elsewhere [] path (hitems d hd)

/-- connections of the right shape whose names are texts, each used once, are written in full -/
theorem inFull_of_shape {v : Value} {path : List PathStep} (h : Schema.adjacency.violations path v = [])
    (hd : v.Unambiguous)
    (hkeys : ∀ sources, v = .object sources → ∀ e ∈ sources, (∃ s, e.1 = .text s) ∧
      ∀ byType, e.2 = .object byType → ∀ f ∈ byType, ∃ s, f.1 = .text s) : InFull IsShaped v := by
  obtain ⟨sources, rfl, hsources⟩ := named_shape h
  refine ⟨sources, rfl, hd.fields.1, fun e he => ?_⟩
  obtain ⟨⟨source, hsource⟩, htypes⟩ := hkeys sources rfl e he
  obtain ⟨-, _, htable⟩ := hsources source e.2 (hsource ▸ he)
  obtain ⟨byType, hbyType, hfields⟩ := named_shape htable
  have hd' := hd.fields.2 e he
  rw [hbyType] at hd'
  refine ⟨source, hsource, byType, hbyType, hd'.fields.1, fun f hf => ?_⟩
  obtain ⟨portType, hportType⟩ := htypes byType hbyType f hf
  obtain ⟨-, _, hlist⟩ := hfields portType f.2 (hportType ▸ hf)
  obtain ⟨ports, hports, hitems⟩ := items_of_shape hlist
  refine ⟨portType, hportType, ports, hports, fun p hp => ?_⟩
  obtain ⟨_, hport⟩ := hitems p hp
  obtain ⟨items, hitems, hedges⟩ := items_of_shape hport
  exact ⟨items, hitems, fun d hd => (hedges d hd).elim fun path => violations_elsewhere path []⟩

/-- the shape does not ask for the descriptors that cannot be read -/
theorem adjacency_violations_legible {v : Value} (h : InFull IsShaped v) (path : List PathStep) :
    Schema.adjacency.violations path (legible v) = Schema.adjacency.violations path v := by
  have unchanged : ∀ l : Fields, l = l.map fun e => (e.1, e.2) := fun l => by simp
  obtain ⟨sources, rfl, -, hsources⟩ := h
  rw [legible, Value.mapFields]
  conv_rhs => rw [unchanged sources]
  refine named_violations_congr (fun e he path => ?_) path
  obtain ⟨-, -, byType, hbyType, -, htypes⟩ := hsources e he
  rw [hbyType, legibleSource, Value.mapFields]
  conv_rhs => rw [unchanged byType]
  refine named_violations_congr (fun f hf path => ?_) path
  obtain ⟨-, -, hports⟩ := htypes f hf
  rw [portList_violations_of_listOf hports, portList_violations_of_listOf]
  exact hports.mapItems fun p hp => (hp.filterItems isLegible).imp fun d hd => hd.1

end Connections

end WorkflowGraph
