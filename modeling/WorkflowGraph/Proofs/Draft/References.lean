import WorkflowGraph.Proofs.Connections.Reading
import WorkflowGraph.Proofs.Draft.NodeSet
/-
References of a draft. Every identifier of a node is a reference, every reference stands for the name of a node, and
after the connections are keyed by names they mention no reference that is not a name itself.

- `referring_keepNodes`: the references of the nodes.
- `resolved_run`, `resolved_rekey`, `rekey_of_resolved`: keying resolves all references, and there is nothing to do where all are.
-/
namespace WorkflowGraph

namespace Draft

/-! ## References of the nodes -/

/-- every identifier is a reference, and every reference stands for a name that was handed out -/
structure Referring (used : Used) (refs : References) : Prop where
  ids : ∀ id ∈ used.ids, Table.has id refs = true
  names : ∀ e ∈ refs, e.2 ∈ used.names.taken

theorem has_refer (refs : References) (ref name : String) : Table.has ref (refer refs ref name) = true := by
  unfold refer
  split
  · assumption
  · simp [Table.has]

theorem has_refer_of_has {refs : References} {ref' : String} (h : Table.has ref' refs = true) (ref name : String) :
    Table.has ref' (refer refs ref name) = true := by
  unfold refer
  split
  · exact h
  · rw [Table.has, List.any_append, ← Table.has, h, Bool.true_or]

theorem has_referGivenId {refs : References} {ref : String} (h : Table.has ref refs = true) (raw : Fields)
    (name : String) : Table.has ref (referGivenId refs raw name) = true := by
  unfold referGivenId
  split
  · exact h
  · exact has_refer_of_has h _ _

theorem has_referTo {refs : References} {ref : String} {raw : Fields} {kept : Kept}
    (h : Table.has ref refs = true ∨ ref = kept.id) : Table.has ref (referTo refs raw kept) = true := by
  have hids : Table.has ref (refer (referGivenId refs raw kept.name) kept.id kept.name) = true := by
    rcases h with hold | hid
    · exact has_refer_of_has (has_referGivenId hold raw kept.name) _ _
    · rw [hid]
      exact has_refer _ _ _
  unfold referTo
  dsimp only
  split
  · split
    · exact hids
    · exact has_refer_of_has hids _ _
  · exact hids

theorem Referring.keepNode {used : Used} {refs : References} (h : Referring used refs) (resolver : Resolver)
    (index : Nat) (raw : Fields) :
    Referring (keepNode resolver index used raw).2.1 (referTo refs raw (keepNode resolver index used raw).1) := by
  constructor
  case ids =>
    rw [ids_keepNode, List.forall_mem_cons]
    exact ⟨has_referTo (Or.inr rfl), fun id hid => has_referTo (Or.inl (h.ids id hid))⟩
  case names =>
    rw [names_keepNode]
    intro e he
    rcases of_mem_referTo he with he | he
    · exact List.mem_cons_of_mem _ (h.names e he)
    · rw [he]
      exact List.mem_cons_self

theorem referring_keepNodes (resolver : Resolver) (sources : Identifiers) (draft : Fields) :
    Referring (keepNodes resolver sources draft).used (keepNodes resolver sources draft).refs := by
  apply keepNodes_induction (P := fun _ s => Referring s.used s.refs) resolver sources draft
  · exact ⟨by simp, by simp⟩
  · intro _ s raw index _ h
    rw [used_keepEntry, refs_keepEntry]
    exact h.keepNode resolver index raw
  · exact fun _ _ _ h => h

/-! ## What connections mention -/

theorem mem_mentioned {c : Connections} {ref : String} :
    ref ∈ mentioned c ↔ Key.text ref ∈ c.sources ∨ ref ∈ c.targets := by
  have hkey : ∀ k : Key, (Value.ofKey k).text? = some ref ↔ k = .text ref := by
    intro k
    cases k with
    | text s => simp [Value.ofKey, Value.text?]
    | _ => simp [Value.ofKey, Value.text?]
  simp only [mentioned, List.mem_mergeSort, List.mem_eraseDups, List.mem_append, List.mem_filterMap, hkey,
    exists_eq_right]

/-- what connections mention is listed as it is found there, when it is found in order -/
theorem mentioned_eq (c : Connections) : mentioned c =
    let all := (c.sources.filterMap (fun k => (Value.ofKey k).text?) ++ c.targets).eraseDups
    if all.Pairwise fun a b => decide (a ≤ b) = true then all else all.mergeSort fun a b => decide (a ≤ b) := by
  unfold mentioned
  dsimp only
  split
  · rename_i hsorted
    exact List.mergeSort_of_pairwise hsorted
  · rfl

theorem mentioned_rename {c : Connections} (hc : c.Keyed) {old new ref : String} (hne : old ≠ new)
    (h : ref ∈ mentioned (c.rename old new)) : ref = new ∨ ref ∈ mentioned c ∧ ref ≠ old := by
  rw [mem_mentioned] at h ⊢
  rcases h with hsource | htarget
  · rcases Connections.mem_sources_rename hc hne hsource with hnew | ⟨hmem, hold⟩
    · exact Or.inl (Key.text.inj hnew)
    · exact Or.inr ⟨Or.inl hmem, fun heq => hold (congrArg Key.text heq)⟩
  · rcases Connections.mem_targets_rename hne htarget with hnew | ⟨hmem, hold⟩
    · exact Or.inl hnew
    · exact Or.inr ⟨Or.inr hmem, hold⟩

/-- connections with fewer edges mention no more -/
theorem mentioned_mapPorts {c : Connections} {f : Port → Port} (hf : ∀ p, ∀ e ∈ f p, e ∈ p) {ref : String}
    (h : ref ∈ mentioned (c.mapPorts f)) : ref ∈ mentioned c := by
  rw [mem_mentioned, Connections.sources_mapPorts] at h
  rw [mem_mentioned]
  have htargets : ∀ t ∈ (c.mapPorts f).targets, t ∈ c.targets := by
    rw [Connections.forall_targets_iff]
    apply Connections.EachPort.mapPorts (Q := fun _ p => ∀ e ∈ p, e.node ∈ c.targets) c.eachPort_targets
    exact fun _ p hp e he => hp e (hf p e he)
  exact h.imp_right (htargets ref)

/-! ## Keying by names -/

/-- no mention of a name that is none of a node but stands for one -/
def Resolved (refs : References) (names : List String) (c : Connections) : Prop :=
  ∀ ref ∈ mentioned c, staleTo? refs names ref = none

theorem staleTo?_of_mem (refs : References) {names : List String} {ref : String} (h : ref ∈ names) :
    staleTo? refs names ref = none := by
  rw [staleTo?, if_pos (List.contains_iff_mem.2 h)]

/-- what is no name but stands for one stands for the name of a node -/
theorem of_staleTo?_eq_some {refs : References} {names : List String} (hnames : ∀ e ∈ refs, e.2 ∈ names)
    {ref name : String} (h : staleTo? refs names ref = some name) : ref ∉ names ∧ name ∈ names := by
  unfold staleTo? at h
  split at h
  · cases h
  · rename_i hother
    rw [List.contains_iff_mem] at hother
    obtain ⟨k, -, hk⟩ := Table.exists_mem_of_get? h
    exact ⟨hother, hnames (k, name) hk⟩

theorem fst_rekeyRef_of_some {refs : References} {names : List String} {ref name : String}
    (h : staleTo? refs names ref = some name) (acc : Connections × Trace) :
    (rekeyRef refs names acc ref).1 = acc.1.rename ref name := by
  rw [rekeyRef, h]

theorem rekeyRef_of_none {refs : References} {names : List String} {ref : String}
    (h : staleTo? refs names ref = none) (acc : Connections × Trace) : rekeyRef refs names acc ref = acc := by
  rw [rekeyRef, h]

theorem keyed_rekeyRef {acc : Connections × Trace} (h : acc.1.Keyed) (refs : References) (names : List String)
    (ref : String) : (rekeyRef refs names acc ref).1.Keyed := by
  cases hstale : staleTo? refs names ref with
  | none => rwa [rekeyRef_of_none hstale]
  | some name =>
    rw [fst_rekeyRef_of_some hstale]
    exact h.rename ref name

/-- a run of replacements leaves no reference that it has come to, in whatever order -/
theorem resolved_run {refs : References} {names : List String} (hnames : ∀ e ∈ refs, e.2 ∈ names)
    (order : List String) (acc : Connections × Trace) (hacc : acc.1.Keyed)
    (h : ∀ ref ∈ mentioned acc.1, ref ∈ order ∨ staleTo? refs names ref = none) :
    Resolved refs names (order.foldl (rekeyRef refs names) acc).1 := by
  induction order generalizing acc with
  | nil => exact fun ref href => (h ref href).resolve_left List.not_mem_nil
  | cons stale order ih =>
    apply ih _ (keyed_rekeyRef hacc refs names stale)
    intro ref href
    cases hstale : staleTo? refs names stale with
    | none =>
      rw [rekeyRef_of_none hstale] at href
      rcases h ref href with hlater | hnone
      · rcases List.mem_cons.1 hlater with rfl | hlater
        · exact Or.inr hstale
        · exact Or.inl hlater
      · exact Or.inr hnone
    | some name =>
      rw [fst_rekeyRef_of_some hstale] at href
      obtain ⟨hother, hname⟩ := of_staleTo?_eq_some hnames hstale
      rcases mentioned_rename hacc (ne_of_mem_of_not_mem hname hother).symm href with rfl | ⟨hmem, hne⟩
      · exact Or.inr (staleTo?_of_mem refs hname)
      · rcases h ref hmem with hlater | hnone
        · exact Or.inl ((List.mem_cons.1 hlater).resolve_left hne)
        · exact Or.inr hnone

/-- **Keying by names resolves all references.** -/
theorem resolved_rekey {refs : References} {names : List String} {c : Connections} (hc : c.Keyed)
    (hnames : ∀ e ∈ refs, e.2 ∈ names) : Resolved refs names (rekey refs names c).1 :=
  resolved_run hnames (mentioned c) (c, []) hc fun _ href => Or.inl href

/-- where all references are resolved there is nothing to key -/
theorem rekey_of_resolved {refs : References} {names : List String} {c : Connections} (h : Resolved refs names c) :
    rekey refs names c = (c, []) := by
  have run : ∀ later : List String, (∀ ref ∈ later, staleTo? refs names ref = none) →
      later.foldl (rekeyRef refs names) (c, []) = (c, []) := by
    intro later
    induction later with
    | nil => exact fun _ => rfl
    | cons ref later ih =>
      intro hlater
      rw [List.forall_mem_cons] at hlater
      have hsame : rekeyRef refs names (c, []) ref = (c, []) := by
        rw [rekeyRef, hlater.1]
      rw [List.foldl_cons, hsame]
      exact ih hlater.2
  exact run _ h

end Draft

end WorkflowGraph
