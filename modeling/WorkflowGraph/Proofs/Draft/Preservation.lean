import WorkflowGraph.Proofs.Draft.References
import WorkflowGraph.Proofs.Draft.Settled
/-
Building a document again. A document that was built from a draft is a draft itself, and what is built from it has the
same nodes, the same edges on as many ports, and the same settings.

- `settled_keepNodes`, `keepNodes_of_settled`: the nodes of the document are settled, so they are kept.
- `resolved_again`: their references name nothing that the connections mention.
- `exists_build_document`, `build_again`: the document.
-/
namespace WorkflowGraph

namespace Draft

/-! ## Nodes -/

/-- whatever the text, the resolver names a canonical type -/
def NamesCanonical (resolver : Resolver) : Prop := ∀ text, Parameters.IsCanonical (resolver text).1.nodeType

theorem isCanonical_nodeType {resolver : Resolver} (h : NamesCanonical resolver) (index : Nat) (raw : Fields) :
    Parameters.IsCanonical (nodeType resolver index raw).1 := by
  unfold nodeType
  cases hgiven : givenType? raw with
  | none => exact h _
  | some given =>
    unfold givenType? at hgiven
    split at hgiven
    · split at hgiven
      · cases hgiven
      · rename_i hblank
        cases hgiven
        rw [Bool.not_eq_true] at hblank
        dsimp only
        exact Parameters.isCanonical_canonicalType hblank
    · cases hgiven

/-- the nodes of a draft are settled, when each gives every parameter once -/
theorem settled_keepNodes {resolver : Resolver} (hresolver : NamesCanonical resolver) (sources : Identifiers)
    {draft : Fields}
    (hd : ∀ n ∈ Document.nodesOf (Value.field "nodes" draft), Table.Distinct ((n.get "parameters").object?.getD [])) :
    ∀ n ∈ (keepNodes resolver sources draft).nodes, ∃ tag name id, Settled tag name id n.fields := by
  apply keepNodes_induction (P := fun _ s => ∀ n ∈ s.nodes, ∃ tag name id, Settled tag name id n.fields) resolver
    sources draft
  · exact fun n hn => absurd hn List.not_mem_nil
  · intro done s raw index hinit h
    have hmem : (⟨raw⟩ : Node) ∈ Document.nodesOf (Value.field "nodes" draft) :=
      hinit.subset (List.mem_append_right _ List.mem_cons_self)
    have hkept := settled_keepNode s.used (isCanonical_nodeType hresolver index raw) (hd ⟨raw⟩ hmem)
    rw [nodes_keepEntry, List.forall_mem_append, List.forall_mem_singleton]
    generalize keepNode resolver index s.used raw = result at hkept ⊢
    exact ⟨h, _, _, _, hkept⟩
  · exact fun _ _ _ h => h

/-- one more node with a label of its own has none of the labels before -/
theorem Labelled.not_mem {field : String} {nodes : List Node} {labels : List String} (h : Labelled field nodes labels)
    {n : Node} {label : String} (hn : n.get field = .text label)
    (hnodup : ((nodes ++ [n]).map (·.get field)).Nodup) : label ∉ labels := by
  intro hmem
  rw [List.map_append, List.nodup_append, h.texts] at hnodup
  exact hnodup.2.2 _ (List.mem_map_of_mem hmem) _ List.mem_cons_self hn.symm

theorem Labelled.nodup {field : String} {nodes : List Node} {labels : List String} (h : Labelled field nodes labels) :
    (nodes.map (·.get field)).Nodup := by
  rw [h.texts]
  exact h.distinct.map fun _ _ heq => Value.text.inj heq

/-- labels are what the nodes have in the field -/
theorem Labelled.unique {field : String} {nodes : List Node} {labels labels' : List String}
    (h : Labelled field nodes labels) (h' : Labelled field nodes labels') : labels = labels' := by
  have htexts := h.texts.symm.trans h'.texts
  exact List.map_injective_iff.2 (fun _ _ heq => Value.text.inj heq) htexts

/-- a settled node is referred to by its identifier only -/
theorem of_mem_referTo_of_settled {tag name id : String} {raw : Fields} (h : Settled tag name id raw)
    {refs : References} {e : String × String} (he : e ∈ referTo refs raw ⟨raw, name, id⟩) : e ∈ refs ∨ e.1 = id := by
  have hgiven : referGivenId refs raw name = refer refs id name := by
    rw [referGivenId, Value.field, h.atId]
    rfl
  have hrefs : referTo refs raw ⟨raw, name, id⟩ = refer (refer refs id name) id name := by
    rw [referTo, Value.field, h.atName, hgiven, Option.getD_some]
    dsimp only
    rw [if_pos rfl]
  rw [hrefs] at he
  rcases of_mem_refer he with he | he
  · exact (of_mem_refer he).imp_right (congrArg Prod.fst)
  · exact Or.inr (congrArg Prod.fst he)

/-- **Settled nodes are kept as they are**, and only their identifiers are references. -/
theorem keepNodes_of_settled (resolver : Resolver) (sources : Identifiers) {draft : Fields} {nodes : List Node}
    (hnodes : Document.nodesOf (Value.field "nodes" draft) = nodes)
    (hsettled : ∀ n ∈ nodes, ∃ tag name id, Settled tag name id n.fields)
    (hnames : (nodes.map (·.get "name")).Nodup) (hids : (nodes.map (·.get "id")).Nodup) :
    (keepNodes resolver sources draft).nodes = nodes ∧
      ∀ e ∈ (keepNodes resolver sources draft).refs, e.1 ∈ (keepNodes resolver sources draft).used.ids := by
  have hrun : (keepNodes resolver sources draft).nodes = Document.nodesOf (Value.field "nodes" draft) ∧
      Formed (keepNodes resolver sources draft).nodes (keepNodes resolver sources draft).used ∧
      ∀ e ∈ (keepNodes resolver sources draft).refs, e.1 ∈ (keepNodes resolver sources draft).used.ids := by
    apply keepNodes_induction
      (P := fun done s => s.nodes = done ∧ Formed s.nodes s.used ∧ ∀ e ∈ s.refs, e.1 ∈ s.used.ids) resolver sources draft
    · exact ⟨rfl, formed_start sources, by simp⟩
    · intro done s raw index hinit h
      obtain ⟨rfl, hformed, hrefs⟩ := h
      rw [hnodes] at hinit
      obtain ⟨tag, name, id, hraw⟩ := hsettled ⟨raw⟩ (hinit.subset (List.mem_append_right _ List.mem_cons_self))
      have hname : name ∉ s.used.names.taken := by
        rw [← List.mem_reverse]
        apply hformed.names.not_mem (n := ⟨raw⟩)
        · rw [Node.get, Value.field, hraw.atName]
          rfl
        · exact hnames.sublist (hinit.sublist.map _)
      have hid : id ∉ s.used.ids := by
        rw [← List.mem_reverse]
        apply hformed.ids.not_mem (n := ⟨raw⟩)
        · rw [Node.get, Value.field, hraw.atId]
          rfl
        · exact hids.sublist (hinit.sublist.map _)
      have hkept := keepNode_of_settled hraw resolver index hname hid
      have hformed' := hformed.keepNode resolver index raw
      have hused := ids_keepNode resolver index s.used raw
      rw [nodes_keepEntry, used_keepEntry, refs_keepEntry]
      generalize keepNode resolver index s.used raw = result at hkept hformed' hused ⊢
      rw [hkept] at hformed' hused ⊢
      refine ⟨rfl, hformed', ?_⟩
      intro e he
      rw [hused]
      rcases of_mem_referTo_of_settled hraw he with he | he
      · exact List.mem_cons_of_mem _ (hrefs e he)
      · rw [he]
        exact List.mem_cons_self
    · exact fun _ _ _ h => h
  rw [hnodes] at hrun
  exact ⟨hrun.1, hrun.2.2⟩

/-! ## Connections -/

theorem keyed_eq (kept : State) (c : Connections) :
    keyed kept c = (rekey kept.refs (kept.nodes.filterMap fun n => n.name.text?) c).1.mapPorts
      (·.filter (Repair.sparesTriggers kept.nodes)) := by
  rw [keyed, connections_foldl_dropIncoming]

/-- the names of nodes are their labels -/
theorem Labelled.names {nodes : List Node} {labels : List String} (h : Labelled "name" nodes labels) :
    (nodes.filterMap fun n => n.name.text?) = labels := by
  calc nodes.filterMap (fun n => n.name.text?)
      = (nodes.map (·.get "name")).filterMap Value.text? := by
        rw [List.filterMap_map]
        rfl
    _ = (labels.map Value.text).filterMap Value.text? := by rw [h.texts]
    _ = labels := by
        rw [List.filterMap_map]
        exact List.filterMap_some

/-- every reference stands for the name of a node -/
theorem referred_keepNodes (resolver : Resolver) (sources : Identifiers) (draft : Fields) :
    ∀ e ∈ (keepNodes resolver sources draft).refs,
      e.2 ∈ (keepNodes resolver sources draft).nodes.filterMap fun n => n.name.text? := by
  intro e he
  rw [(formed_keepNodes resolver sources draft).names.names, List.mem_reverse]
  exact (referring_keepNodes resolver sources draft).names e he

/-- the connections of the document mention nothing that stands for another name -/
theorem resolved_keyed {resolver : Resolver} {sources : Identifiers} {draft : Fields} {c : Connections}
    (hc : c.Canonical) :
    Resolved (keepNodes resolver sources draft).refs
      ((keepNodes resolver sources draft).nodes.filterMap fun n => n.name.text?)
      (keyed (keepNodes resolver sources draft) c) := by
  have hresolved := resolved_rekey hc.toKeyed (referred_keepNodes resolver sources draft)
  intro ref href
  rw [keyed_eq] at href
  apply hresolved
  exact mentioned_mapPorts (fun _ _ he => List.mem_of_mem_filter he) href

/-- fewer references stand for fewer names -/
theorem Resolved.mono {refs refs' : References} {names : List String} {c : Connections} (h : Resolved refs names c)
    (hrefs : ∀ e ∈ refs', Table.has e.1 refs = true) : Resolved refs' names c := by
  intro ref href
  have hnone := h ref href
  unfold staleTo? at hnone ⊢
  split
  · rfl
  · rename_i hother
    rw [if_neg hother] at hnone
    cases hget : Table.get? ref refs' with
    | none => rfl
    | some name =>
      obtain ⟨k, hk, hmem⟩ := Table.exists_mem_of_get? hget
      have hhas := hrefs (k, name) hmem
      rw [beq_iff_eq.1 hk, Table.has_iff_get?, hnone] at hhas
      cases hhas

theorem Resolved.mapPorts {refs : References} {names : List String} {c : Connections} (h : Resolved refs names c)
    {f : Port → Port} (hf : ∀ p, ∀ e ∈ f p, e ∈ p) : Resolved refs names (c.mapPorts f) :=
  fun ref href => h ref (mentioned_mapPorts hf href)

/-- where all references are resolved, keying again leaves the connections alone -/
theorem keyed_of_resolved {kept kept' : State} (hnodes : kept'.nodes = kept.nodes) (c : Connections)
    (h : Resolved kept'.refs (kept.nodes.filterMap fun n => n.name.text?) ((keyed kept c).mapPorts Connections.once)) :
    keyed kept' ((keyed kept c).mapPorts Connections.once) = (keyed kept c).mapPorts Connections.once := by
  have hspared : Connections.EachPort (fun _ p => ∀ e ∈ p, Repair.sparesTriggers kept.nodes e = true)
      ((keyed kept c).mapPorts Connections.once) := by
    rw [keyed_eq, Connections.mapPorts_mapPorts]
    apply Connections.EachPort.mapPorts (P := fun _ _ => True)
      (Q := fun _ p => ∀ e ∈ p, Repair.sparesTriggers kept.nodes e = true)
    · exact fun _ _ _ _ _ _ => trivial
    · intro _ p _ e he
      rw [Connections.mem_once] at he
      exact (List.mem_filter.1 he).2
  rw [keyed_eq, hnodes, rekey_of_resolved h]
  apply Connections.mapPorts_eq_self
  exact hspared.imp fun _ p hp => List.filter_eq_self.2 hp

/-! ## The document -/

theorem eq_object_of_minimalShape {draft : Value} {fields : Fields} (h : minimalShape draft = .ok fields) :
    draft = .object fields := by
  unfold minimalShape at h
  split at h
  · split at h
    · cases h
      rfl
    · cases h
  · cases h

/-- two documents with the same nodes, as many ports of every source and type with the same edges, and the same
header -/
structure Alike (document document' : Fields) : Prop where
  header : ∀ e ∈ headers, Value.field e.1 document' = Value.field e.1 document
  graph : ∃ nodes c c', Document.Holds document nodes c ∧ Document.Holds document' nodes c' ∧
    (∀ source portType, (c'.ports source portType).length = (c.ports source portType).length) ∧
    ∀ l, l ∈ c'.links ↔ l ∈ c.links

/-- every header has something to stand for it -/
theorem headers_fit : ∀ e ∈ headers, e.2.1 e.2.2 = true := by
  simp [headers, Value.isText, Value.isFilled, Value.text?, Value.isList, Value.list?, Value.isObject, Value.object?]

/-- the nodes of an unambiguous draft give each parameter once -/
theorem distinct_parameters {draft : Fields} (h : (Value.object draft).Unambiguous) :
    ∀ n ∈ Document.nodesOf (Value.field "nodes" draft), Table.Distinct ((n.get "parameters").object?.getD []) := by
  intro n hn
  have hnodes := h.field "nodes"
  cases hv : Value.field "nodes" draft with
  | list items =>
    rw [hv] at hn hnodes
    obtain ⟨v, hv, hread⟩ := List.mem_filterMap.1 hn
    cases v with
    | object fields =>
      cases hread
      exact ((hnodes.items _ hv).field "parameters").distinct
    | _ => cases hread
  | _ =>
    rw [hv] at hn
    cases hn

/-- the header of a document is what a draft can give -/
theorem header_fits {draft document : Fields}
    (h : ∀ e ∈ headers, Value.field e.1 document =
      if e.2.1 (Value.field e.1 draft) then Value.field e.1 draft else e.2.2) :
    ∀ e ∈ headers, e.2.1 (Value.field e.1 document) = true := by
  intro e he
  rw [h e he]
  split
  · assumption
  · exact headers_fit e he

/-- a new document is made as long as the clock can be told -/
theorem exists_newDocument {sources : Identifiers} {version : String} (h : sources.versionId = .ok version)
    (name : Value) : ∃ r, newDocument sources name = .ok r :=
  ⟨_, bind_eq_ok.2 ⟨version, h, rfl⟩⟩

/-- a document that was built can be built again, as long as the clock can be told: its connections can be read -/
theorem exists_build_document {resolver resolver' : Resolver} {sources sources' : Identifiers} {draft : Value}
    {built : Built} {version : String} (h : build resolver sources draft = .ok built)
    (hclock : sources'.versionId = .ok version) :
    ∃ built', build resolver' sources' (.object built.document) = .ok built' := by
  obtain ⟨fields, start, c, -, hload, hholds, -⟩ := build_eq_ok h
  have hcanonical : (keyed (keepNodes resolver start fields) c).Canonical :=
    canonical_keyed (Connections.load_form hload).1
  have hshape : minimalShape (.object built.document) = .ok built.document := by
    rw [minimalShape, Table.has_iff_get?, hholds.atNodes]
    rfl
  obtain ⟨⟨document, sources''⟩, hdocument⟩ := exists_newDocument hclock
    (if (Value.field "name" built.document).isText then Value.field "name" built.document else "Workflow")
  have hagain := Connections.load_toValue hcanonical
  rw [← hholds.connections_field] at hagain
  exact ⟨_, bind_eq_ok.2 ⟨_, mapError_eq_ok.2 hshape, bind_eq_ok.2 ⟨_, hdocument, bind_eq_ok.2 ⟨_, hagain, rfl⟩⟩⟩⟩

/-- **A document that was built is built again into the same.** Whatever draft the standard resolver builds a document
from, as long as no object in it names a field twice, which no draft that is read from a text does
(`Json.unambiguous_of_parse?`, `Yaml.unambiguous_of_parse`), building from that document gives the same nodes, as many
ports with the same edges, and the same name, tags, pinned data and settings. -/
theorem build_again {sources sources' : Identifiers} {draft : Value} {built built' : Built}
    (hdraft : draft.Unambiguous) (h : build .standard sources draft = .ok built)
    (h' : build .standard sources' (.object built.document) = .ok built') : Alike built.document built'.document := by
  obtain ⟨fields, start, c, hfields, hload, hholds, hheader⟩ := build_eq_ok h
  obtain ⟨fields', start', c', hfields', hload', hholds', hheader'⟩ := build_eq_ok h'
  rw [eq_object_of_minimalShape hfields] at hdraft
  cases eq_object_of_minimalShape hfields'
  -- the second build starts from the nodes and the connections of the first
  have hcanonical : (keyed (keepNodes .standard start fields) c).Canonical :=
    canonical_keyed (Connections.load_form hload).1
  rw [hholds.connections_field, Connections.load_toValue hcanonical] at hload'
  cases hload'
  have hformed := formed_keepNodes .standard start fields
  have hsettled := settled_keepNodes Parameters.isCanonical_standard start (distinct_parameters hdraft)
  obtain ⟨hnodes, hrefs⟩ := keepNodes_of_settled .standard start' hholds.nodesOf hsettled hformed.names.nodup
    hformed.ids.nodup
  -- its references are identifiers, and the first build left none of these in the connections
  have hids : (keepNodes .standard start' built.document).used.ids = (keepNodes .standard start fields).used.ids := by
    have hagain := (formed_keepNodes .standard start' built.document).ids
    rw [hnodes] at hagain
    exact List.reverse_injective (hagain.unique hformed.ids)
  have hresolved : Resolved (keepNodes .standard start' built.document).refs
      ((keepNodes .standard start fields).nodes.filterMap fun n => n.name.text?)
      ((keyed (keepNodes .standard start fields) c).mapPorts Connections.once) := by
    apply Resolved.mapPorts _ fun _ _ he => Connections.mem_once.1 he
    apply (resolved_keyed (Connections.load_form hload).1).mono
    intro e he
    apply (referring_keepNodes .standard start fields).ids
    rw [← hids]
    exact hrefs e he
  rw [hnodes, keyed_of_resolved hnodes c hresolved] at hholds'
  constructor
  case header =>
    intro e he
    rw [hheader' e he, if_pos (header_fits hheader e he)]
  case graph =>
    refine ⟨_, _, _, hholds, hholds', ?_, ?_⟩
    · intro source portType
      rw [Connections.ports_mapPorts, List.length_map]
    · intro l
      rw [(hcanonical.toKeyed.mapPorts _).mem_links, hcanonical.toKeyed.mem_links,
        Connections.portAt_mapPorts _ rfl, Connections.mem_once]

/-- the tangled draft is untangled once, and stays as it is -/
theorem build_again_tangledDraft :
    (Value.object tangledDraft).Unambiguous ∧
      ∃ built built', build .standard firstSources (.object tangledDraft) = .ok built ∧
        build .standard firstSources (.object built.document) = .ok built' ∧
        Alike built.document built'.document := by
  have hdraft : (Value.object tangledDraft).Unambiguous := by
    simp [tangledDraft, Table.Distinct, Key.text_beq_text]
  obtain ⟨built, hbuilt, -⟩ := exists_ok_of_any (p := fun built => 0 < built.trace.length)
    (by decide +kernel : ((build .standard firstSources (.object tangledDraft)).toOption.any _) = true)
  obtain ⟨version, hclock, -⟩ := exists_ok_of_any (p := fun version => !version.isEmpty)
    (by decide +kernel : firstSources.versionId.toOption.any _ = true)
  obtain ⟨built', hbuilt'⟩ := exists_build_document hbuilt hclock
  exact ⟨hdraft, built, built', hbuilt, hbuilt', build_again hdraft hbuilt hbuilt'⟩

end Draft

end WorkflowGraph
