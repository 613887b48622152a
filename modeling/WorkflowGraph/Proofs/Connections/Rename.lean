import WorkflowGraph.Proofs.Connections.Ports
/-
Renaming. When a name is changed, connections stay canonical, the edges are the old ones up to the name, and nothing
mentions the name that was changed any more.

- `Keyed.rename`, `Canonical.rename`: renamed connections keep their form.
- `mem_sources_rename`, `mem_targets_rename`: what renamed connections mention.
-/
namespace WorkflowGraph

namespace Connections

/-- the connections with the ports of one source added to those of another -/
def moveSource (c : Connections) (old new : String) : Connections :=
  (c.portTable (.text old)).foldl (fun c y => c.modifyPorts (.text new) y.1 (mergePorts · y.2))
    ⟨c.table.remove (.text old)⟩

theorem rename_of_ne (c : Connections) {old new : String} (hne : old ≠ new) :
    c.rename old new = (c.moveSource old new).mapPorts (·.map (Edge.retarget old new)) := by
  unfold rename
  rw [if_neg hne]
  rfl

/-- what holds without the source and is kept by every merge holds when the source is moved -/
theorem moveSource_induction {I : Connections → Prop} {c : Connections} {old new : String}
    (start : I ⟨c.table.remove (.text old)⟩)
    (step : ∀ d, ∀ y ∈ c.portTable (.text old), I d → I (d.modifyPorts (.text new) y.1 (mergePorts · y.2))) :
    I (c.moveSource old new) := by
  have run : ∀ (moved : PortTable) (d : Connections), (∀ y ∈ moved, y ∈ c.portTable (.text old)) → I d →
      I (moved.foldl (fun c y => c.modifyPorts (.text new) y.1 (mergePorts · y.2)) d) := by
    intro moved
    induction moved with
    | nil => exact fun _ _ hd => hd
    | cons y moved ih =>
      intro d hmoved hd
      rw [List.forall_mem_cons] at hmoved
      exact ih _ hmoved.2 (step d y hmoved.1 hd)
  exact run _ _ (fun _ hy => hy) start

/-! ## Edges -/

/-- merged ports hold edges of one side or the other -/
theorem forall_mergePorts {P : Edge → Prop} {kept moved : List Port} (hk : ∀ p ∈ kept, ∀ e ∈ p, P e)
    (hm : ∀ p ∈ moved, ∀ e ∈ p, P e) : ∀ p ∈ mergePorts kept moved, ∀ e ∈ p, P e := by
  have both : ∀ {p q : Port}, (∀ e ∈ p, P e) → (∀ e ∈ q, P e) →
      ∀ e ∈ p.foldl (fun q e => insertEdge e q) q, P e := by
    intro p q hp hq e he
    rcases mem_foldl_insertEdge.1 he with he | he
    · exact hq e he
    · exact hp e he
  induction kept generalizing moved with
  | nil =>
    intro p hp
    obtain ⟨q, hq, rfl⟩ := List.mem_map.1 hp
    exact both (hm q hq) (by simp)
  | cons k kept ih =>
    cases moved with
    | nil => exact hk
    | cons m moved =>
      rw [List.forall_mem_cons] at hk hm
      exact List.forall_mem_cons.2 ⟨both hm.1 hk.1, ih hk.2 hm.2⟩

/-- the ports of a source are among all ports -/
theorem EachPort.portTable {P : String → Port → Prop} {c : Connections} (h : EachPort P c) (source : Key) :
    ∀ y ∈ c.portTable source, ∀ p ∈ y.2, P y.1 p := by
  unfold Connections.portTable
  cases hg : Table.get? source c.table with
  | none => simp
  | some t =>
    obtain ⟨k, -, hk⟩ := Table.exists_mem_of_get? hg
    exact h (k, t) hk

/-- the edges of renamed connections are the old ones with the name changed -/
theorem eachEdge_rename {P Q : String → Edge → Prop} {c : Connections} (h : EachPort (fun t p => ∀ e ∈ p, P t e) c)
    {old new : String} (hne : old ≠ new) (hretarget : ∀ t e, P t e → Q t (Edge.retarget old new e)) :
    EachPort (fun t p => ∀ e ∈ p, Q t e) (c.rename old new) := by
  have hmoved : EachPort (fun t p => ∀ e ∈ p, P t e) (c.moveSource old new) := by
    apply moveSource_induction
    · exact fun x hx => h x (List.mem_of_mem_eraseP hx)
    · intro d y hy hd
      apply EachPort.modifyPorts hd
      exact fun ports hports => forall_mergePorts hports (h.portTable _ y hy)
  rw [rename_of_ne c hne]
  apply EachPort.mapPorts (Q := fun t p => ∀ e ∈ p, Q t e) hmoved
  intro t p hp e he
  obtain ⟨a, ha, rfl⟩ := List.mem_map.1 he
  exact hretarget t a (hp a ha)

/-! ## Canonical connections -/

theorem Keyed.rename {c : Connections} (h : Keyed c) (old new : String) : Keyed (c.rename old new) := by
  by_cases hne : old = new
  · rwa [Connections.rename, if_pos hne]
  · have hrest : Keyed ⟨c.table.remove (.text old)⟩ :=
      ⟨Table.distinct_remove _ h.distinct, fun x hx => h.texts x (List.mem_of_mem_eraseP hx),
        fun x hx => h.types x (List.mem_of_mem_eraseP hx)⟩
    have hmoved : Keyed (c.moveSource old new) :=
      moveSource_induction hrest fun d y _ hd => hd.modifyPorts new y.1 _
    rw [rename_of_ne c hne]
    exact hmoved.mapPorts _

/-- the connections without a source -/
theorem Canonical.remove {c : Connections} (h : Canonical c) (source : Key) :
    Canonical ⟨c.table.remove source⟩ where
  distinct := Table.distinct_remove source h.distinct
  texts x hx := h.texts x (List.mem_of_mem_eraseP hx)
  types x hx := h.types x (List.mem_of_mem_eraseP hx)
  filled x hx := h.filled x (List.mem_of_mem_eraseP hx)
  readable x hx := h.readable x (List.mem_of_mem_eraseP hx)

theorem readableEdge_retarget {portType old new : String} (hnew : Text.isBlankText new = false) {e : Edge}
    (h : ReadableEdge portType e) : ReadableEdge portType (Edge.retarget old new e) := by
  unfold Edge.retarget
  split
  · exact ⟨hnew, h.2⟩
  · exact h

theorem Canonical.rename {c : Connections} (h : Canonical c) (old : String) {new : String}
    (hnew : Text.isBlankText new = false) : Canonical (c.rename old new) := by
  by_cases hne : old = new
  · rw [Connections.rename, if_pos hne]
    exact h
  · have hmoved : Canonical (c.moveSource old new) := by
      apply moveSource_induction (h.remove _)
      intro d y hy hd
      apply hd.modifyPorts
      exact fun ports hports => forall_mergePorts hports (h.readable.portTable _ y hy)
    rw [rename_of_ne c hne]
    apply hmoved.mapPorts
    intro t p hp e he
    obtain ⟨a, ha, rfl⟩ := List.mem_map.1 he
    exact readableEdge_retarget hnew (hp a ha)

/-! ## Names -/

theorem sources_mapPorts (c : Connections) (f : Port → Port) : (c.mapPorts f).sources = c.sources := by
  simp [sources, mapPorts_table, Table.keys]

theorem mem_sources_modifyPorts {c : Connections} {source k : Key} {portType : String} {f : List Port → List Port}
    (h : k ∈ (c.modifyPorts source portType f).sources) : k = source ∨ k ∈ c.sources := by
  rw [sources, modifyPorts, Table.keys_modify] at h
  split at h
  · exact Or.inr h
  · rcases List.mem_append.1 h with h | h
    · exact Or.inr h
    · exact Or.inl (List.mem_singleton.1 h)

theorem mem_keys_remove {t : Table Key PortTable} (hd : t.Distinct) {k : Key} {s : String}
    (h : k ∈ Table.keys (t.remove (.text s))) : k ∈ Table.keys t ∧ k ≠ .text s := by
  obtain ⟨e, he, rfl⟩ := List.mem_map.1 h
  refine ⟨List.mem_map_of_mem (List.mem_of_mem_eraseP he), ?_⟩
  intro hkey
  have hget := Table.get?_of_mem (Table.distinct_remove _ hd) he
  rw [Table.get?_remove hd, hkey, BEq.rfl, if_pos rfl] at hget
  cases hget

/-- a source of renamed connections is the new name, or it was a source under another name than the old one -/
theorem mem_sources_rename {c : Connections} (hc : Keyed c) {old new : String} (hne : old ≠ new) {k : Key}
    (h : k ∈ (c.rename old new).sources) : k = .text new ∨ k ∈ c.sources ∧ k ≠ .text old := by
  have hmoved : ∀ k ∈ (c.moveSource old new).sources, k = .text new ∨ k ∈ c.sources ∧ k ≠ .text old := by
    apply moveSource_induction (I := fun d => ∀ k ∈ d.sources, k = .text new ∨ k ∈ c.sources ∧ k ≠ .text old)
    · exact fun k hk => Or.inr (mem_keys_remove hc.distinct hk)
    · intro d y _ hd k hk
      rcases mem_sources_modifyPorts hk with hnew | hk
      · exact Or.inl hnew
      · exact hd k hk
  rw [rename_of_ne c hne, sources_mapPorts] at h
  exact hmoved k h

/-- what holds of all targets holds of the targets of all edges -/
theorem forall_targets_iff {c : Connections} {P : String → Prop} :
    (∀ t ∈ c.targets, P t) ↔ EachPort (fun _ p => ∀ e ∈ p, P e.node) c := by
  constructor
  · intro h
    exact (c.eachPort_targets).imp fun _ p hp e he => h _ (hp e he)
  · intro h t ht
    obtain ⟨l, hl, rfl⟩ := List.mem_map.1 ht
    obtain ⟨x, hx, -, y, hy, -, he⟩ := mem_links_iff.1 hl
    cases hp : y.2[l.port]? with
    | none => simp [hp] at he
    | some p =>
      rw [hp] at he
      exact h x hx y hy p (List.mem_of_getElem? hp) l.edge he

/-- a target of renamed connections is the new name, or it was a target under another name than the old one -/
theorem mem_targets_rename {c : Connections} {old new : String} (hne : old ≠ new) {t : String}
    (h : t ∈ (c.rename old new).targets) : t = new ∨ t ∈ c.targets ∧ t ≠ old := by
  have htargets : ∀ t ∈ (c.rename old new).targets, t = new ∨ t ∈ c.targets ∧ t ≠ old := by
    rw [forall_targets_iff]
    apply eachEdge_rename (Q := fun _ e => e.node = new ∨ e.node ∈ c.targets ∧ e.node ≠ old) c.eachPort_targets hne
    intro _ e he
    unfold Edge.retarget
    split
    · exact Or.inl rfl
    · rename_i hother
      exact Or.inr ⟨he, hother⟩
  exact htargets t h

end Connections

end WorkflowGraph
