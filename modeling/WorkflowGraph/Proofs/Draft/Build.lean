import WorkflowGraph.Draft.Build
import WorkflowGraph.Proofs.Connections.Rename
import WorkflowGraph.Proofs.Document
import WorkflowGraph.Proofs.Draft.Node
import WorkflowGraph.Proofs.Naming
/-
Documents of drafts. Every node gets a name that no other node has, references stand for such names only, and
connections stay canonical when they are keyed by them.

- `keepNodes_induction`: what keeping one entry after another keeps.
- `sound_keepNodes`: the nodes of a draft.
- `build_eq_ok`, `build_wellBuilt`: the document of a draft.
-/
namespace WorkflowGraph

namespace Draft

/-! ## The run over the entries -/

/-- an object among the entries is one more node -/
theorem keepEntry_object (resolver : Resolver) (s : State) (raw : Fields) (index : Nat) :
    keepEntry resolver s (.object raw, index) =
      ⟨s.nodes ++ [⟨(keepNode resolver index s.used raw).1.fields⟩], (keepNode resolver index s.used raw).2.1,
        referTo s.refs raw (keepNode resolver index s.used raw).1,
        s.trace ++ (keepNode resolver index s.used raw).2.2⟩ := by
  unfold keepEntry
  dsimp only

theorem nodes_keepEntry (resolver : Resolver) (s : State) (raw : Fields) (index : Nat) :
    (keepEntry resolver s (.object raw, index)).nodes = s.nodes ++ [⟨(keepNode resolver index s.used raw).1.fields⟩] := by
  rw [keepEntry_object]

theorem used_keepEntry (resolver : Resolver) (s : State) (raw : Fields) (index : Nat) :
    (keepEntry resolver s (.object raw, index)).used = (keepNode resolver index s.used raw).2.1 := by
  rw [keepEntry_object]

theorem refs_keepEntry (resolver : Resolver) (s : State) (raw : Fields) (index : Nat) :
    (keepEntry resolver s (.object raw, index)).refs = referTo s.refs raw (keepNode resolver index s.used raw).1 := by
  rw [keepEntry_object]

/-- the numbers of entries make no difference to which of them are objects -/
theorem filterMap_zipIdx_ofValue? (items : List Value) :
    (items.zipIdx.filterMap fun e => Node.ofValue? e.1) = items.filterMap Node.ofValue? := by
  calc items.zipIdx.filterMap (fun e => Node.ofValue? e.1)
      = (items.zipIdx.map Prod.fst).filterMap Node.ofValue? := by rw [List.filterMap_map]; rfl
    _ = items.filterMap Node.ofValue? := by rw [List.zipIdx_map_fst]

/-- what holds at the start and is kept by every entry, an object or not, holds of the nodes that were kept for the
objects among the entries -/
theorem keepNodes_induction {P : List Node → State → Prop} (resolver : Resolver) (sources : Identifiers)
    (draft : Fields) (start : P [] ⟨[], ⟨⟨[]⟩, [], sources⟩, [], []⟩)
    (node : ∀ done s raw index, done ++ [⟨raw⟩] <+: Document.nodesOf (Value.field "nodes" draft) → P done s →
      P (done ++ [⟨raw⟩]) (keepEntry resolver s (.object raw, index)))
    (note : ∀ done s trace, P done s → P done { s with trace := trace }) :
    P (Document.nodesOf (Value.field "nodes" draft)) (keepNodes resolver sources draft) := by
  have run : ∀ (entries : List (Value × Nat)) (done : List Node) (s : State),
      (done ++ entries.filterMap fun e => Node.ofValue? e.1) <+: Document.nodesOf (Value.field "nodes" draft) →
      P done s → P (done ++ entries.filterMap fun e => Node.ofValue? e.1) (entries.foldl (keepEntry resolver) s) := by
    intro entries
    induction entries with
    | nil =>
      intro done s _ h
      simpa using h
    | cons e entries ih =>
      intro done s hall h
      obtain ⟨v, index⟩ := e
      cases v with
      | object raw =>
        have hsplit : done ++ ((Value.object raw, index) :: entries).filterMap (fun e => Node.ofValue? e.1) =
            done ++ [⟨raw⟩] ++ entries.filterMap fun e => Node.ofValue? e.1 := by
          rw [List.append_assoc]
          rfl
        rw [hsplit] at hall ⊢
        exact ih _ _ hall (node done s raw index ((List.prefix_append _ _).trans hall) h)
      | _ => exact ih done _ hall (note done s _ h)
  unfold keepNodes
  cases hnodes : Value.field "nodes" draft with
  | list items =>
    have h := run items.zipIdx [] _ (by rw [filterMap_zipIdx_ofValue?, hnodes]; exact List.prefix_refl _) start
    rw [filterMap_zipIdx_ofValue?] at h
    exact h
  | _ => exact note [] _ _ start

/-! ## Nodes -/

/-- the nodes kept so far: names of their own, code as parameters, and references to names that are not blank -/
structure Sound (s : State) : Prop where
  named : WellNamed s.nodes
  registered : Registered s.nodes s.used.names
  covered : ∀ n ∈ s.nodes, n.Covered
  refs : ∀ e ∈ s.refs, Text.isBlankText e.2 = false

theorem of_mem_refer {refs : References} {ref name : String} {e : String × String} (h : e ∈ refer refs ref name) :
    e ∈ refs ∨ e = (ref, name) := by
  unfold refer at h
  split at h
  · exact Or.inl h
  · exact (List.mem_append.1 h).imp_right List.mem_singleton.1

theorem of_mem_referGivenId {refs : References} {raw : Fields} {name : String} {e : String × String}
    (h : e ∈ referGivenId refs raw name) : e ∈ refs ∨ e.2 = name := by
  unfold referGivenId at h
  split at h
  · exact Or.inl h
  · exact (of_mem_refer h).imp_right (congrArg Prod.snd)

/-- a new reference is one to the node that was kept -/
theorem of_mem_referTo {refs : References} {raw : Fields} {kept : Kept} {e : String × String}
    (h : e ∈ referTo refs raw kept) : e ∈ refs ∨ e.2 = kept.name := by
  have ids : e ∈ refer (referGivenId refs raw kept.name) kept.id kept.name → e ∈ refs ∨ e.2 = kept.name := by
    intro he
    rcases of_mem_refer he with he | he
    · exact of_mem_referGivenId he
    · exact Or.inr (congrArg Prod.snd he)
  unfold referTo at h
  dsimp only at h
  split at h
  · split at h
    · exact ids h
    · rcases of_mem_refer h with h | h
      · exact ids h
      · exact Or.inr (congrArg Prod.snd h)
  · exact ids h

theorem sound_start (sources : Identifiers) : Sound ⟨[], ⟨⟨[]⟩, [], sources⟩, [], []⟩ where
  named := wellNamed_nil
  registered := registered_nil _
  covered := by simp
  refs := by simp

theorem Sound.keepEntry {s : State} (h : Sound s) (resolver : Resolver) (raw : Fields) (index : Nat) :
    Sound (keepEntry resolver s (.object raw, index)) := by
  have hname := kept_name resolver index s.used raw
  constructor
  case named =>
    rw [nodes_keepEntry]
    exact h.named.snoc h.registered (hname.trans (by rw [name_keepNode]))
  case registered =>
    rw [nodes_keepEntry, used_keepEntry, names_keepNode]
    exact h.registered.snoc hname
  case covered =>
    rw [nodes_keepEntry]
    exact List.forall_mem_append.2
      ⟨h.covered, List.forall_mem_singleton.2 (kept_covered resolver index s.used raw)⟩
  case refs =>
    rw [refs_keepEntry]
    intro e he
    rcases of_mem_referTo he with he | he
    · exact h.refs e he
    · rw [he, name_keepNode]
      exact NameRegistry.freshName_not_blank _ _

/-- **The nodes of a draft have names of their own**, and their code as parameters. -/
theorem sound_keepNodes (resolver : Resolver) (sources : Identifiers) (draft : Fields) :
    Sound (keepNodes resolver sources draft) := by
  apply keepNodes_induction (P := fun _ s => Sound s) resolver sources draft
  · exact sound_start sources
  · exact fun _ _ raw index _ h => h.keepEntry resolver raw index
  · exact fun _ _ _ h => ⟨h.named, h.registered, h.covered, h.refs⟩

/-! ## Connections -/

theorem canonical_rekeyRef {refs : References} (hrefs : ∀ e ∈ refs, Text.isBlankText e.2 = false) (names : List String)
    {acc : Connections × Trace} (h : acc.1.Canonical) (ref : String) : (rekeyRef refs names acc ref).1.Canonical := by
  unfold rekeyRef
  split
  · rename_i name hname
    unfold staleTo? at hname
    split at hname
    · cases hname
    · obtain ⟨k, -, hk⟩ := Table.exists_mem_of_get? hname
      exact h.rename ref (hrefs (k, name) hk)
  · exact h

theorem canonical_foldl_rekeyRef {refs : References} (hrefs : ∀ e ∈ refs, Text.isBlankText e.2 = false)
    (names stale : List String) {acc : Connections × Trace} (h : acc.1.Canonical) :
    (stale.foldl (rekeyRef refs names) acc).1.Canonical := by
  induction stale generalizing acc with
  | nil => exact h
  | cons ref stale ih => exact ih (canonical_rekeyRef hrefs names h ref)

theorem canonical_dropIncoming {acc : Connections × Trace} (h : acc.1.Canonical) (n : Node) :
    (dropIncoming acc n).1.Canonical := by
  unfold dropIncoming
  split
  · dsimp only
    split
    · exact h
    · exact h.removeEdgesTo _
  · exact h

theorem canonical_foldl_dropIncoming (nodes : List Node) {acc : Connections × Trace} (h : acc.1.Canonical) :
    (nodes.foldl dropIncoming acc).1.Canonical := by
  induction nodes generalizing acc with
  | nil => exact h
  | cons n nodes ih => exact ih (canonical_dropIncoming h n)

/-- the connections of the document of a draft with given nodes and connections -/
def keyed (kept : State) (c : Connections) : Connections :=
  (kept.nodes.foldl dropIncoming ((rekey kept.refs (kept.nodes.filterMap fun n => n.name.text?) c).1, [])).1

theorem canonical_keyed {resolver : Resolver} {sources : Identifiers} {draft : Fields} {c : Connections}
    (hc : c.Canonical) : (keyed (keepNodes resolver sources draft) c).Canonical :=
  canonical_foldl_dropIncoming _
    (canonical_foldl_rekeyRef (sound_keepNodes resolver sources draft).refs _ _ hc)

/-! ## The document -/

/-- the fields of a document that a draft decides on, with what the draft must give there and what stands there
otherwise -/
def headers : List (String × (Value → Bool) × Value) := [
  ("name", fun v => v.isText && v.isFilled, .text "Workflow"),
  ("tags", Value.isList, .list []),
  ("pinData", Value.isObject, .object []),
  ("settings", Value.isObject, .object [])]

/-- a document with one field as the draft gives it, if that fits -/
def withField (draft : Fields) (name : String) (fits : Value → Bool) (document : Fields) : Fields :=
  if fits (Value.field name draft) then Table.put (.text name) (Value.field name draft) document else document

theorem withHeader_eq (draft document : Fields) :
    withHeader draft document = withField draft "settings" Value.isObject
      (withField draft "pinData" Value.isObject (withField draft "tags" Value.isList document)) := rfl

theorem field_put (name other : String) (v : Value) (fields : Fields) :
    Value.field other (Table.put (.text name) v fields) = if name = other then v else Value.field other fields := by
  rw [Value.field, Table.get?_put, Key.text_beq_text]
  by_cases h : name = other
  · simp [h]
  · simp [h, Value.field]

theorem field_withField_self (draft : Fields) (name : String) (fits : Value → Bool) (document : Fields) :
    Value.field name (withField draft name fits document) =
      if fits (Value.field name draft) then Value.field name draft else Value.field name document := by
  unfold withField
  split
  · rw [field_put, if_pos rfl]
  · rfl

theorem field_withField_of_ne {name other : String} (h : name ≠ other) (draft : Fields) (fits : Value → Bool)
    (document : Fields) :
    Value.field other (withField draft name fits document) = Value.field other document := by
  unfold withField
  split
  · rw [field_put, if_neg h]
  · rfl

/-- the fields of a new document that a draft decides on -/
theorem field_newDocument {sources sources' : Identifiers} {name : Value} {document : Fields}
    (h : newDocument sources name = .ok (document, sources')) :
    Value.field "name" document = (if name.isFilled then name else .text "Workflow") ∧
      Value.field "tags" document = .list [] ∧ Value.field "pinData" document = .object [] ∧
      Value.field "settings" document = .object [] := by
  obtain ⟨version, -, h⟩ := bind_eq_ok.1 h
  cases h
  exact ⟨rfl, rfl, rfl, rfl⟩

theorem field_putAll_graph (document : Fields) {name : String} (hnodes : "nodes" ≠ name)
    (hconnections : "connections" ≠ name) (nodes connections : Value) :
    Value.field name (Table.putAll document [(.text "nodes", nodes), (.text "connections", connections)]) =
      Value.field name document := by
  show Value.field name (Table.put _ _ (Table.put _ _ _)) = _
  rw [field_put, if_neg hconnections, field_put, if_neg hnodes]

/-- **What a draft is built into**: its nodes as they are kept, its connections keyed by their names, and the header
as far as it gives one. -/
theorem build_eq_ok {resolver : Resolver} {sources : Identifiers} {draft : Value} {built : Built}
    (h : build resolver sources draft = .ok built) :
    ∃ fields sources' c, minimalShape draft = .ok fields ∧
      Connections.load (Value.field "connections" fields) = .ok c ∧
      Document.Holds built.document (keepNodes resolver sources' fields).nodes
        (keyed (keepNodes resolver sources' fields) c) ∧
      ∀ e ∈ headers, Value.field e.1 built.document =
        if e.2.1 (Value.field e.1 fields) then Value.field e.1 fields else e.2.2 := by
  obtain ⟨fields, hfields, h⟩ := bind_eq_ok.1 h
  obtain ⟨⟨document, sources'⟩, hdocument, h⟩ := bind_eq_ok.1 h
  obtain ⟨c, hload, h⟩ := bind_eq_ok.1 h
  cases h
  refine ⟨fields, sources', c, mapError_eq_ok.1 hfields, hload, Document.holds_putAll _ _ _, ?_⟩
  obtain ⟨hname, htags, hpinData, hsettings⟩ := field_newDocument hdocument
  simp only [headers, List.forall_mem_cons]
  refine ⟨?_, ?_, ?_, ?_, by simp⟩
  · rw [field_putAll_graph _ (by decide) (by decide), withHeader_eq, field_withField_of_ne (by decide),
      field_withField_of_ne (by decide), field_withField_of_ne (by decide), hname]
    cases htext : (Value.field "name" fields).isText with
    | true => simp
    | false =>
      simp only [Bool.false_eq_true, if_false, Bool.false_and]
      rfl
  · rw [field_putAll_graph _ (by decide) (by decide), withHeader_eq, field_withField_of_ne (by decide),
      field_withField_of_ne (by decide), field_withField_self, htags]
  · rw [field_putAll_graph _ (by decide) (by decide), withHeader_eq, field_withField_of_ne (by decide),
      field_withField_self, field_withField_of_ne (by decide), hpinData]
  · rw [field_putAll_graph _ (by decide) (by decide), withHeader_eq, field_withField_self,
      field_withField_of_ne (by decide), field_withField_of_ne (by decide), hsettings]

/-- **The document of a draft** has nodes with names of their own and their code as parameters, and connections that can
be read back. -/
theorem build_wellBuilt {resolver : Resolver} {sources : Identifiers} {draft : Value} {built : Built}
    (h : build resolver sources draft = .ok built) : ∃ nodes c, Document.WellBuilt built.document nodes c := by
  obtain ⟨fields, sources', c, -, hload, hholds, -⟩ := build_eq_ok h
  have hsound := sound_keepNodes resolver sources' fields
  exact ⟨_, _, hholds, hsound.named, canonical_keyed (Connections.load_form hload).1, hsound.covered⟩

end Draft

end WorkflowGraph
