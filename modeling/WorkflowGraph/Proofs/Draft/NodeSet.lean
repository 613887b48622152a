import WorkflowGraph.Proofs.Draft.Build
import WorkflowGraph.Proofs.Repair.FirstStep
/-
The nodes of a draft's document. Every object among the draft's entries becomes one node, in order. Whatever the entries
say, the nodes have names and identifiers of their own, all parameters that their types require, and no edge leads into
a trigger.

- `formed_keepNodes`: names, identifiers and parameters.
- `build_wellFormed`: the node set of the document.
-/
namespace WorkflowGraph

namespace Draft

/-! ## Well-formed node sets -/

/-- a node stands for an entry of the draft: it has the type that the entry gives, in canonical form, the position that
can be read from it, and all fields that no rule is about -/
structure Keeps (raw : Fields) (n : Node) : Prop where
  type : ∀ given, givenType? raw = some given → n.get "type" = .text (Parameters.canonicalType given)
  position : ∀ p, position? (Value.field "position" raw) = some p → n.get "position" = p
  others : ∀ key, (∀ name ∈ mendedFields, key ≠ .text name) → Table.get? key n.fields = Table.get? key raw

/-- every node has a text of its own in a field -/
structure Labelled (field : String) (nodes : List Node) (labels : List String) : Prop where
  texts : nodes.map (·.get field) = labels.map Value.text
  distinct : labels.Nodup

/-- the parameters of a node have every key that its type requires -/
def Complete (n : Node) : Prop :=
  ∃ params, n.get "parameters" = .object params ∧
    ∀ key, Table.has key (Parameters.defaults n.shortType) = true → Table.has key params = true

/-- nodes that stand for the objects among a draft's entries one by one, have names and identifiers of their own and
complete parameters, with connections that lead into no trigger -/
structure WellFormed (draft : Fields) (nodes : List Node) (c : Connections) : Prop where
  kept : List.Forall₂ (fun m n => Keeps m.fields n) (Document.nodesOf (Value.field "nodes" draft)) nodes
  names : ∃ names, Labelled "name" nodes names ∧ ∀ name ∈ names, name ≠ "" ∧ Text.strip name = name
  ids : ∃ ids, Labelled "id" nodes ids ∧ ∀ id ∈ ids, id ≠ ""
  complete : ∀ n ∈ nodes, Complete n
  triggerFree : ∀ n ∈ nodes, n.isTrigger = true → ∀ l ∈ c.links, n.name ≠ .text l.edge.node

theorem Labelled.snoc {field : String} {nodes : List Node} {labels : List String} (h : Labelled field nodes labels)
    {n : Node} {label : String} (hn : n.get field = .text label) (hnew : label ∉ labels) :
    Labelled field (nodes ++ [n]) (labels ++ [label]) where
  texts := by simp [h.texts, hn]
  distinct := by
    rw [List.nodup_append]
    refine ⟨h.distinct, List.nodup_singleton _, ?_⟩
    rintro a ha b hb rfl
    rw [List.mem_singleton.1 hb] at ha
    exact hnew ha

/-! ## Kept nodes -/

section

variable (resolver : Resolver) (index : Nat) (used : Used) (raw : Fields)

theorem kept_type :
    (⟨(keepNode resolver index used raw).1.fields⟩ : Node).get "type" = .text (nodeType resolver index raw).1 := by
  rw [Node.get, Value.field, get?_type_keepNode]
  rfl

theorem kept_id :
    (⟨(keepNode resolver index used raw).1.fields⟩ : Node).get "id" =
      .text (keepNode resolver index used raw).1.id := by
  rw [Node.get, Value.field, get?_id_keepNode]
  rfl

theorem kept_position :
    (⟨(keepNode resolver index used raw).1.fields⟩ : Node).get "position" =
      (nodePosition (keepNode resolver index used raw).1.name index raw).1 := by
  rw [Node.get, Value.field, get?_position_keepNode]
  rfl

theorem kept_parameters :
    (⟨(keepNode resolver index used raw).1.fields⟩ : Node).get "parameters" =
      .object (parameters (nodeType resolver index raw).1 raw).1 := by
  rw [Node.get, Value.field, get?_parameters_keepNode]
  rfl

theorem kept_tag : (⟨(keepNode resolver index used raw).1.fields⟩ : Node).tag = (nodeType resolver index raw).1 := by
  rw [Node.tag, kept_type, Value.toTag_text]

theorem keeps_keepNode : Keeps raw ⟨(keepNode resolver index used raw).1.fields⟩ where
  type := by
    intro given hgiven
    rw [kept_type, nodeType, hgiven]
  position := by
    intro p hp
    rw [kept_position, nodePosition, hp]
  others := by
    intro key hkey
    have hothers := get?_keepNode_of_ne resolver index used raw hkey
    generalize keepNode resolver index used raw = result at hothers ⊢
    exact hothers

theorem complete_keepNode : Complete ⟨(keepNode resolver index used raw).1.fields⟩ := by
  refine ⟨_, kept_parameters resolver index used raw, ?_⟩
  intro key hkey
  rw [Node.shortType, kept_tag] at hkey
  exact has_required hkey raw

end

/-! ## The run over the entries -/

/-- names and identifiers are those that were handed out, in order, and parameters are complete -/
structure Formed (nodes : List Node) (used : Used) : Prop where
  names : Labelled "name" nodes used.names.taken.reverse
  trimmed : ∀ name ∈ used.names.taken, name ≠ "" ∧ Text.strip name = name
  ids : Labelled "id" nodes used.ids.reverse
  filled : ∀ id ∈ used.ids, id ≠ ""
  complete : ∀ n ∈ nodes, Complete n

theorem formed_start (sources : Identifiers) : Formed [] ⟨⟨[]⟩, [], sources⟩ :=
  ⟨⟨rfl, List.nodup_nil⟩, by simp, ⟨rfl, List.nodup_nil⟩, by simp, by simp⟩

/-- one more node that is kept has a name, an identifier and parameters as they are to be -/
theorem Formed.keepNode {nodes : List Node} {used : Used} (h : Formed nodes used) (resolver : Resolver) (index : Nat)
    (raw : Fields) :
    Formed (nodes ++ [⟨(keepNode resolver index used raw).1.fields⟩]) (keepNode resolver index used raw).2.1 := by
  have hname := name_keepNode resolver index used raw
  have hid := id_keepNode resolver index used raw
  obtain ⟨hidNew, hidFilled⟩ := nodeId_new used.ids index raw
  constructor
  case names =>
    rw [names_keepNode, NameRegistry.take, List.reverse_cons]
    apply h.names.snoc (kept_name resolver index used raw)
    rw [List.mem_reverse, hname]
    exact used.names.freshName_not_mem _
  case trimmed =>
    rw [names_keepNode, NameRegistry.take, List.forall_mem_cons, hname]
    exact ⟨⟨used.names.freshName_ne_empty _, used.names.strip_freshName _⟩, h.trimmed⟩
  case ids =>
    rw [ids_keepNode, List.reverse_cons]
    apply h.ids.snoc (kept_id resolver index used raw)
    rw [List.mem_reverse, hid]
    exact hidNew
  case filled =>
    rw [ids_keepNode, List.forall_mem_cons, hid]
    exact ⟨hidFilled, h.filled⟩
  case complete =>
    exact List.forall_mem_append.2 ⟨h.complete, List.forall_mem_singleton.2 (complete_keepNode resolver index used raw)⟩

theorem formed_keepNodes (resolver : Resolver) (sources : Identifiers) (draft : Fields) :
    Formed (keepNodes resolver sources draft).nodes (keepNodes resolver sources draft).used := by
  apply keepNodes_induction (P := fun _ s => Formed s.nodes s.used) resolver sources draft
  · exact formed_start sources
  · intro _ s raw index _ h
    rw [nodes_keepEntry, used_keepEntry]
    exact h.keepNode resolver index raw
  · exact fun _ _ _ h => h

/-- the nodes stand for the objects among the entries, one by one -/
theorem keeps_keepNodes (resolver : Resolver) (sources : Identifiers) (draft : Fields) :
    List.Forall₂ (fun m n => Keeps m.fields n) (Document.nodesOf (Value.field "nodes" draft))
      (keepNodes resolver sources draft).nodes := by
  apply keepNodes_induction (P := fun done s => List.Forall₂ (fun m n => Keeps m.fields n) done s.nodes) resolver
    sources draft
  · exact List.Forall₂.nil
  · intro done s raw index _ h
    rw [nodes_keepEntry]
    exact List.rel_append h (List.Forall₂.cons (keeps_keepNode resolver index s.used raw) List.Forall₂.nil)
  · exact fun _ _ _ h => h

/-! ## Edges into triggers -/

/-- edges into a trigger are dropped as the first step of a repair drops them -/
theorem connections_dropIncoming (acc : Connections × Trace) (n : Node) (s : Repair.State)
    (h : s.connections = acc.1) : (Repair.dropIncoming s n).connections = (dropIncoming acc n).1 := by
  unfold Repair.dropIncoming dropIncoming
  cases n.isTrigger with
  | false => exact h
  | true =>
    cases n.name with
    | text name =>
      dsimp only
      rw [h]
      split
      · exact h
      · rfl
    | _ => exact h

theorem connections_foldl_dropIncoming (nodes : List Node) (acc : Connections × Trace) :
    (nodes.foldl dropIncoming acc).1 = acc.1.mapPorts (·.filter (Repair.sparesTriggers nodes)) := by
  have run : ∀ (later : List Node) (acc : Connections × Trace) (s : Repair.State), s.connections = acc.1 →
      (later.foldl Repair.dropIncoming s).connections = (later.foldl dropIncoming acc).1 := by
    intro later
    induction later with
    | nil => exact fun _ _ h => h
    | cons n later ih => exact fun acc s h => ih _ _ (connections_dropIncoming acc n s h)
  rw [← run nodes acc ⟨[], acc.1, 0, []⟩ rfl, Repair.connections_foldl_dropIncoming]

/-- without the edges into triggers, no edge leads into a trigger -/
theorem triggerFree_filter {nodes : List Node} {c : Connections} {l : Link}
    (hl : l ∈ (c.mapPorts (·.filter (Repair.sparesTriggers nodes))).links) {n : Node} (hn : n ∈ nodes)
    (htrigger : n.isTrigger = true) : n.name ≠ .text l.edge.node := by
  intro hname
  have hspared : Repair.sparesTriggers nodes l.edge = true := by
    obtain ⟨x, hx, -, y, hy, -, he⟩ := Connections.mem_links_iff.1 hl
    obtain ⟨a, -, rfl⟩ := List.mem_map.1 hx
    obtain ⟨b, -, rfl⟩ := List.mem_map.1 hy
    rw [List.getElem?_map] at he
    cases hp : b.2[l.port]? with
    | none => simp [hp] at he
    | some p =>
      rw [hp] at he
      exact (List.mem_filter.1 he).2
  rw [Repair.sparesTriggers, Bool.not_eq_true', ← Bool.not_eq_true, List.contains_iff_mem] at hspared
  exact hspared (Repair.mem_triggerNames.2 ⟨n, hn, htrigger, hname⟩)

/-! ## The document -/

/-- **The node set of a draft's document is well-formed.** Whenever a draft is built, its document has one node for each
object among the draft's entries, in order; names and identifiers are their own, and names have no blanks around them;
all required parameters are there; and no edge leads into a trigger. -/
theorem build_wellFormed {resolver : Resolver} {sources : Identifiers} {draft : Value} {fields : Fields} {built : Built}
    (hdraft : minimalShape draft = .ok fields) (h : build resolver sources draft = .ok built) :
    ∃ nodes c, Document.Holds built.document nodes c ∧ WellFormed fields nodes c := by
  obtain ⟨fields', sources', c, hfields, -, hholds, -⟩ := build_eq_ok h
  rw [hdraft] at hfields
  cases hfields
  have hformed := formed_keepNodes resolver sources' fields
  refine ⟨_, _, hholds, ?_⟩
  exact {
    kept := keeps_keepNodes resolver sources' fields
    names := ⟨_, hformed.names, by simpa using hformed.trimmed⟩
    ids := ⟨_, hformed.ids, by simpa using hformed.filled⟩
    complete := hformed.complete
    triggerFree := by
      intro n hn htrigger l hl
      rw [keyed, connections_foldl_dropIncoming] at hl
      exact triggerFree_filter hl hn htrigger }

/-- a draft whose nodes share a name and an identifier, or have none, with an entry that is no node, and edges into its
trigger, once by identifier and once by the name with blanks around it -/
def tangledDraft : Fields := [
  (.text "nodes", .list [
    .object [(.text "name", .text " Hook "), (.text "type", .text "webhook"), (.text "id", .int 1)],
    .int 7,
    .object [(.text "name", .text "Hook"), (.text "type", .text "Set"), (.text "id", .text "1"),
      (.text "position", .object [(.text "x", .int 3), (.text "y", .int 4)])],
    .object [(.text "parameters", .object [(.text "url", .text "https://example.org")]),
      (.text "type", .text "n8n-nodes-base.httpRequest")]]),
  (.text "connections", .object [
    (.text "1", .object [(.text "main", .list [.list [.text "Hook", .text "1", .text " Hook "]])]),
    (.text "4", .object [(.text "main", .text "Hook 2")])])]

/-- identifiers from the first letters on -/
def firstSources : Identifiers := ⟨fun i => i, 0, "0123456789abcdef", Double.ofNat 1, 0⟩

theorem build_wellFormed_tangledDraft :
    minimalShape (.object tangledDraft) = .ok tangledDraft ∧
      ∃ built, build .standard firstSources (.object tangledDraft) = .ok built ∧
        ∃ nodes c, Document.Holds built.document nodes c ∧ WellFormed tangledDraft nodes c := by
  have hdraft : minimalShape (.object tangledDraft) = .ok tangledDraft := rfl
  obtain ⟨built, hbuilt, -⟩ := exists_ok_of_any (p := fun built => 0 < built.trace.length)
    (by decide +kernel : ((build .standard firstSources (.object tangledDraft)).toOption.any _) = true)
  exact ⟨hdraft, built, hbuilt, build_wellFormed hdraft hbuilt⟩

end Draft

end WorkflowGraph
