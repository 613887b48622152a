import WorkflowGraph.Proofs.Draft.Meaning
/-
Identifiers that a draft gives. Identifiers are looked at and assigned in one pass, so a node keeps the one that it
gives unless an earlier node has it, be it assigned, and a reference stands for the first node that answers to it. The
edges of the document are rewired accordingly.

- `nodeId_eq_iff`: when a node keeps its identifier.
- `get?_refs_keepNodes`: what a reference stands for.
- `build_honours`: identifiers and edges of the document.
- `build_rewires`: a draft whose identifiers are not kept.
-/
namespace WorkflowGraph

namespace Draft

/-! ## Identifiers -/

/-- a node keeps the identifier that it gives exactly when no node before it has it -/
theorem nodeId_eq_iff {used : List String} {index : Nat} {raw : Fields} {id : String} (h : givenId? raw = some id) :
    (nodeId used index raw).1 = id ↔ id ∉ used := by
  have hnew := (nodeId_new used index raw).1
  constructor
  · rintro hid hmem
    rw [hid] at hnew
    exact hnew hmem
  · intro hfree
    rw [nodeId, h]
    dsimp only
    rw [if_neg (by simpa using hfree)]

/-! ## References -/

/-- the identifier that an entry of a draft gives, in whatever form, as a text -/
def givenRef? (raw : Fields) : Option String :=
  match Value.field "id" raw with
  | .null => none
  | v => some v.toText

/-- the name that an entry of a draft gives, unless its node has that name -/
def spelledRef? (entry n : Node) : Option String :=
  match entry.name with
  | .text s => if n.name.text? = some s then none else some s
  | _ => none

/-- the references that a node answers to: the identifier that its entry gives, the identifier that it has itself, and
its name as the entry spells it -/
def answersTo (entry n : Node) : List String :=
  (givenRef? entry.fields).toList ++ (n.get "id").text?.toList ++ (spelledRef? entry n).toList

theorem referGivenId_eq (refs : References) (raw : Fields) (name : String) :
    referGivenId refs raw name = (givenRef? raw).toList.foldl (fun refs ref => refer refs ref name) refs := by
  unfold referGivenId givenRef?
  cases Value.field "id" raw <;> rfl

/-- a node that is kept adds the references that it answers to -/
theorem referTo_eq (refs : References) (raw : Fields) (kept : Kept) {n : Node} (hid : n.get "id" = .text kept.id)
    (hname : n.name = .text kept.name) :
    referTo refs raw kept = (answersTo ⟨raw⟩ n).foldl (fun refs ref => refer refs ref kept.name) refs := by
  have hentry : (⟨raw⟩ : Node).name = Value.field "name" raw := rfl
  unfold referTo answersTo spelledRef?
  rw [List.foldl_append, List.foldl_append, ← referGivenId_eq, hid, hname, hentry]
  cases Value.field "name" raw with
  | text s =>
    by_cases hs : s = kept.name
    · simp [hs, Value.text?]
    · simp [hs, Ne.symm hs, Value.text?]
  | _ => rfl

theorem get?_refer (refs : References) (ref ref' name : String) :
    Table.get? ref' (refer refs ref name) = (Table.get? ref' refs).or (if ref = ref' then some name else none) := by
  by_cases hhas : Table.has ref refs = true
  · rw [refer, if_pos hhas]
    by_cases hsame : ref = ref'
    · subst hsame
      rw [Table.has_iff_get?, Option.isSome_iff_exists] at hhas
      obtain ⟨other, hother⟩ := hhas
      rw [hother]
      rfl
    · rw [if_neg hsame, Option.or_none]
  · have hnew : Table.has ref refs = false := by simpa using hhas
    rw [refer, if_neg hhas, ← Table.put_of_not_has hnew, Table.get?_put]
    by_cases hsame : ref = ref'
    · subst hsame
      rw [Table.has_iff_get?, Option.isSome_eq_false_iff, Option.isNone_iff_eq_none] at hnew
      simp [hnew]
    · simp [hsame]

theorem get?_foldl_refer (news : List String) (refs : References) (name ref : String) :
    Table.get? ref (news.foldl (fun refs ref => refer refs ref name) refs) =
      (Table.get? ref refs).or (if ref ∈ news then some name else none) := by
  induction news generalizing refs with
  | nil => simp
  | cons new news ih =>
    rw [List.foldl_cons, ih, get?_refer, Option.or_assoc]
    congr 1
    by_cases hnew : new = ref
    · simp [hnew]
    · simp [hnew, Ne.symm hnew]

/-! ## The run over the entries -/

/-- where the identifiers of nodes and the meanings of references come from, entry by entry -/
structure Traced (entries : List Node) (s : State) : Prop where
  length : entries.length = s.nodes.length
  formed : Formed s.nodes s.used
  /-- an identifier that is given is kept unless a node before has it -/
  ids : ∀ earlier entry n later, entries.zip s.nodes = earlier ++ (entry, n) :: later →
    ∀ id, givenId? entry.fields = some id → (n.get "id" = .text id ↔ ∀ p ∈ earlier, p.2.get "id" ≠ .text id)
  /-- a reference stands for the first node that answers to it -/
  refs : ∀ ref, Table.get? ref s.refs =
    ((entries.zip s.nodes).find? fun p => decide (ref ∈ answersTo p.1 p.2)).bind fun p => p.2.name.text?

/-- an identifier in use is one of a node -/
theorem Formed.mem_ids_iff {nodes : List Node} {used : Used} (h : Formed nodes used) {id : String} :
    id ∈ used.ids ↔ ∃ n ∈ nodes, n.get "id" = .text id := by
  have hmem : Value.text id ∈ nodes.map (·.get "id") ↔ id ∈ used.ids := by
    rw [h.ids.texts, List.mem_map_of_injective fun _ _ heq => Value.text.inj heq, List.mem_reverse]
  rw [← hmem, List.mem_map]

theorem Formed.exists_name {nodes : List Node} {used : Used} (h : Formed nodes used) {n : Node} (hn : n ∈ nodes) :
    ∃ name, n.name = .text name := by
  have hmem : n.get "name" ∈ used.names.taken.reverse.map Value.text := h.names.texts ▸ List.mem_map_of_mem hn
  obtain ⟨name, -, hname⟩ := List.mem_map.1 hmem
  exact ⟨name, hname.symm⟩

theorem traced_start (sources : Identifiers) : Traced [] ⟨[], ⟨⟨[]⟩, [], sources⟩, [], []⟩ :=
  ⟨rfl, formed_start sources, by simp, fun _ => rfl⟩

theorem Traced.keepEntry {entries : List Node} {s : State} (h : Traced entries s) (resolver : Resolver) (raw : Fields)
    (index : Nat) : Traced (entries ++ [⟨raw⟩]) (keepEntry resolver s (.object raw, index)) := by
  have hid := kept_id resolver index s.used raw
  have hname := kept_name resolver index s.used raw
  have hnodeId := id_keepNode resolver index s.used raw
  have hformed := h.formed.keepNode resolver index raw
  rw [keepEntry_object]
  generalize keepNode resolver index s.used raw = result at hid hname hnodeId hformed ⊢
  have hzip : (entries ++ [(⟨raw⟩ : Node)]).zip (s.nodes ++ [(⟨result.1.fields⟩ : Node)]) =
      entries.zip s.nodes ++ [(⟨raw⟩, ⟨result.1.fields⟩)] := List.zip_append h.length
  constructor
  case length => simp [h.length]
  case formed => exact hformed
  case ids =>
    intro earlier entry n later hsplit id hgiven
    rw [hzip] at hsplit
    rcases List.eq_nil_or_concat later with rfl | ⟨later, last, rfl⟩
    · obtain ⟨rfl, hlast⟩ := List.append_inj' hsplit rfl
      cases hlast
      have hused : id ∉ s.used.ids ↔ ∀ p ∈ entries.zip s.nodes, p.2.get "id" ≠ .text id := by
        have hnodes : (entries.zip s.nodes).map Prod.snd = s.nodes := List.map_snd_zip h.length.ge
        rw [h.formed.mem_ids_iff]
        constructor
        · exact fun hnone p hp hpid => hnone ⟨p.2, (List.of_mem_zip hp).2, hpid⟩
        · rintro hnone ⟨n, hn, hnid⟩
          rw [← hnodes] at hn
          obtain ⟨p, hp, rfl⟩ := List.mem_map.1 hn
          exact hnone p hp hnid
      rw [← hused, ← nodeId_eq_iff hgiven, hid, hnodeId, Value.text.injEq]
    · have hold : entries.zip s.nodes = earlier ++ (entry, n) :: later := by
        rw [List.concat_eq_append, ← List.cons_append, ← List.append_assoc] at hsplit
        exact (List.append_inj' hsplit rfl).1
      exact h.ids earlier entry n later hold id hgiven
  case refs =>
    intro ref
    rw [hzip, List.find?_append, referTo_eq s.refs raw result.1 hid hname, get?_foldl_refer, h.refs ref]
    cases hfirst : (entries.zip s.nodes).find? fun p => decide (ref ∈ answersTo p.1 p.2) with
    | some p =>
      obtain ⟨name, hp⟩ := h.formed.exists_name (List.of_mem_zip (List.mem_of_find?_eq_some hfirst)).2
      simp [hp, Value.text?]
    | none =>
      by_cases hanswers : ref ∈ answersTo ⟨raw⟩ ⟨result.1.fields⟩
      · simp [hanswers, hname, Value.text?]
      · simp [hanswers]

theorem traced_keepNodes (resolver : Resolver) (sources : Identifiers) (draft : Fields) :
    Traced (Document.nodesOf (Value.field "nodes" draft)) (keepNodes resolver sources draft) := by
  apply keepNodes_induction (P := fun done s => Traced done s) resolver sources draft
  · exact traced_start sources
  · exact fun _ _ raw index _ h => h.keepEntry resolver raw index
  · exact fun _ _ _ h => ⟨h.length, h.formed, h.ids, h.refs⟩

/-! ## The document -/

/-- a document with the edges of its draft, as identifiers are kept and references stand for names -/
structure Honours (draft : Fields) (c : Connections) (nodes : List Node) (d : Connections) (stands : String → String) :
    Prop where
  /-- every entry of the draft becomes a node -/
  length : (Document.nodesOf (Value.field "nodes" draft)).length = nodes.length
  /-- the edges are those of the draft between the names that their ends stand for, except into triggers -/
  edges : ∀ l, l ∈ d.links ↔ (∃ l₀ ∈ c.links, l₀.renamed stands = l) ∧ l.edge.node ∉ Repair.triggerNames nodes
  /-- names stand for themselves -/
  names : ∀ n ∈ nodes, ∀ name, n.name = .text name → stands name = name
  /-- an identifier that is given is kept unless a node before has it -/
  kept : ∀ earlier entry n later,
    (Document.nodesOf (Value.field "nodes" draft)).zip nodes = earlier ++ (entry, n) :: later →
      ∀ id, givenId? entry.fields = some id → (n.get "id" = .text id ↔ ∀ p ∈ earlier, p.2.get "id" ≠ .text id)
  /-- an identifier that is given stands for the node unless a node before answers to it -/
  honoured : ∀ earlier entry n later,
    (Document.nodesOf (Value.field "nodes" draft)).zip nodes = earlier ++ (entry, n) :: later →
      ∀ id, givenId? entry.fields = some id → (∀ m ∈ nodes, m.name ≠ .text id) →
        (n.name = .text (stands id) ↔ ∀ p ∈ earlier, id ∉ answersTo p.1 p.2)

theorem givenRef?_of_givenId? {raw : Fields} {id : String} (h : givenId? raw = some id) : givenRef? raw = some id := by
  unfold givenId? at h
  unfold givenRef?
  cases hv : Value.field "id" raw with
  | text s =>
    rw [hv] at h
    dsimp only at h
    split at h
    · cases h
    · exact h
  | int i =>
    rw [hv] at h
    exact h
  | _ =>
    rw [hv] at h
    cases h

/-- a node answers to the identifier that its entry gives -/
theorem mem_answersTo_of_givenId? {entry n : Node} {id : String} (h : givenId? entry.fields = some id) :
    id ∈ answersTo entry n := by
  simp [answersTo, givenRef?_of_givenId? h]

/-- what is no name of a node stands for the name of the first node that answers to it -/
theorem Traced.meaning_eq {entries : List Node} {s : State} (h : Traced entries s) {ref : String}
    (hnone : ∀ m ∈ s.nodes, m.name ≠ .text ref) {p : Node × Node} {name : String}
    (hfirst : ((entries.zip s.nodes).find? fun p => decide (ref ∈ answersTo p.1 p.2)) = some p)
    (hname : p.2.name = .text name) : s.meaning ref = name := by
  have hother : (s.nodes.filterMap fun n => n.name.text?).contains ref = false := by
    rw [← Bool.not_eq_true, List.contains_iff_mem, List.mem_filterMap]
    rintro ⟨m, hm, htext⟩
    obtain ⟨name, hmname⟩ := h.formed.exists_name hm
    rw [hmname] at htext
    exact hnone m hm (hmname.trans (congrArg Value.text (Option.some.inj htext)))
  have hget : Table.get? ref s.refs = some name := by
    rw [h.refs ref, hfirst, Option.bind_some, hname]
    rfl
  rw [State.meaning, Draft.meaning, staleTo?, hother, hget]
  rfl

/-- an identifier that is given stands for the node unless a node before answers to it -/
theorem Traced.honoured {entries : List Node} {s : State} (h : Traced entries s)
    {earlier later : List (Node × Node)} {entry n : Node}
    (hsplit : entries.zip s.nodes = earlier ++ (entry, n) :: later) {id : String}
    (hgiven : givenId? entry.fields = some id) (hnone : ∀ m ∈ s.nodes, m.name ≠ .text id) :
    n.name = .text (s.meaning id) ↔ ∀ p ∈ earlier, id ∉ answersTo p.1 p.2 := by
  have hnodes : (entries.zip s.nodes).map Prod.snd = s.nodes := List.map_snd_zip h.length.ge
  have hmem : n ∈ s.nodes := by
    rw [← hnodes, hsplit]
    exact List.mem_map_of_mem (f := Prod.snd) (List.mem_append_right _ List.mem_cons_self)
  obtain ⟨name, hname⟩ := h.formed.exists_name hmem
  constructor
  · intro hstands p hp hanswers
    cases hfound : earlier.find? fun p => decide (id ∈ answersTo p.1 p.2) with
    | none => exact absurd (decide_eq_true hanswers) (List.find?_eq_none.1 hfound p hp)
    | some q =>
      have hq := List.mem_of_find?_eq_some hfound
      have hqmem : q.2 ∈ s.nodes := by
        rw [← hnodes, hsplit]
        exact List.mem_map_of_mem (List.mem_append_left _ hq)
      obtain ⟨other, hother⟩ := h.formed.exists_name hqmem
      have hfirst : ((entries.zip s.nodes).find? fun p => decide (id ∈ answersTo p.1 p.2)) = some q := by
        rw [hsplit, List.find?_append, hfound]
        rfl
      rw [h.meaning_eq hnone hfirst hother, ← hother] at hstands
      -- but no other node has the name of the node
      have hdistinct := h.formed.names.nodup
      rw [← hnodes, hsplit, List.map_append, List.map_append, List.nodup_append] at hdistinct
      exact hdistinct.2.2 _ (List.mem_map_of_mem (List.mem_map_of_mem hq)) _ List.mem_cons_self hstands.symm
  · intro hnew
    have hfirst : ((entries.zip s.nodes).find? fun p => decide (id ∈ answersTo p.1 p.2)) = some (entry, n) := by
      have hbefore : (earlier.find? fun p => decide (id ∈ answersTo p.1 p.2)) = none :=
        List.find?_eq_none.2 fun p hp => by simpa using hnew p hp
      rw [hsplit, List.find?_append, hbefore, Option.none_or, List.find?_cons,
        decide_eq_true (mem_answersTo_of_givenId? hgiven)]
    rw [h.meaning_eq hnone hfirst hname]
    exact hname

/-- **Identifiers are kept and honoured in the order of the nodes.** Whenever a draft is built, a node keeps the
identifier that it gives exactly when no node before it has that identifier, and references by that identifier lead to
the node exactly when no node before it answers to it. -/
theorem build_honours {resolver : Resolver} {sources : Identifiers} {draft : Value} {fields : Fields} {built : Built}
    (hdraft : minimalShape draft = .ok fields) (h : build resolver sources draft = .ok built) :
    ∃ c nodes d stands, Connections.load (Value.field "connections" fields) = .ok c ∧
      Document.Holds built.document nodes d ∧ Honours fields c nodes d stands := by
  obtain ⟨fields', sources', c, hfields, hload, hholds, -⟩ := build_eq_ok h
  rw [hdraft] at hfields
  cases hfields
  have htraced := traced_keepNodes resolver sources' fields
  refine ⟨c, _, _, (keepNodes resolver sources' fields).meaning, hload, hholds, ?_⟩
  exact {
    length := htraced.length
    edges := fun l => mem_links_keyed (Connections.load_form hload).1
    names := by
      intro n hn name hname
      refine meaning_of_mem (List.mem_filterMap.2 ⟨n, hn, ?_⟩)
      rw [hname]
      rfl
    kept := htraced.ids
    honoured := fun earlier entry n later hsplit id hgiven hnone => htraced.honoured hsplit hgiven hnone }

/-- when every entry gives an identifier of its own, every node keeps its identifier -/
theorem Honours.kept_of_given {draft : Fields} {c d : Connections} {nodes : List Node} {stands : String → String}
    (h : Honours draft c nodes d stands)
    (hgiven : ∀ e ∈ Document.nodesOf (Value.field "nodes" draft), givenId? e.fields ≠ none)
    (hdistinct : ((Document.nodesOf (Value.field "nodes" draft)).map fun e => givenId? e.fields).Nodup) :
    ∀ earlier entry n later,
      (Document.nodesOf (Value.field "nodes" draft)).zip nodes = earlier ++ (entry, n) :: later →
        ∀ id, givenId? entry.fields = some id → n.get "id" = .text id := by
  have hentries : ((Document.nodesOf (Value.field "nodes" draft)).zip nodes).map Prod.fst =
      Document.nodesOf (Value.field "nodes" draft) := List.map_fst_zip h.length.le
  intro earlier
  -- by strong induction the nodes before have the identifiers that their own entries give
  induction hlength : earlier.length using Nat.strong_induction_on generalizing earlier with
  | _ k ih =>
    intro entry n later hsplit id hid
    refine (h.kept earlier entry n later hsplit id hid).2 ?_
    rintro ⟨entry', n'⟩ hp hsame
    obtain ⟨before, between, rfl⟩ := List.append_of_mem hp
    have hmem : entry' ∈ Document.nodesOf (Value.field "nodes" draft) := by
      rw [← hentries, hsplit]
      exact List.mem_map_of_mem (f := Prod.fst) (List.mem_append_left _ hp)
    obtain ⟨id', hid'⟩ := Option.ne_none_iff_exists'.1 (hgiven entry' hmem)
    have hshorter : before.length < k := by
      rw [← hlength, List.length_append, List.length_cons]
      omega
    have hearlier := ih before.length hshorter before rfl entry' n' (between ++ (entry, n) :: later)
      (by rw [hsplit, List.append_assoc, List.cons_append]) id' hid'
    have heq : id' = id := Value.text.inj (hearlier.symm.trans hsame)
    rw [← hentries, hsplit, List.map_append, List.map_append, List.nodup_append] at hdistinct
    exact hdistinct.2.2 _ (List.mem_map_of_mem (List.mem_map_of_mem hp)) _ List.mem_cons_self
      (by rw [hid', heq, ← hid])

/-! ## A draft whose identifiers are not kept -/

/-- a draft whose last node alone gives an identifier, which its connections use -/
def mixedDraft : Fields := [
  (.text "nodes", .list [
    .object [(.text "name", .text "Begin"), (.text "type", .text "n8n-nodes-base.manualTrigger")],
    .object [(.text "name", .text "First"), (.text "type", .text "n8n-nodes-base.noOp")],
    .object [(.text "id", .text "2"), (.text "name", .text "Second"), (.text "type", .text "n8n-nodes-base.noOp")]]),
  (.text "connections", .object [
    (.text "2", .object [(.text "main", .list [.list [.text "First"]])]),
    (.text "Begin", .object [(.text "main", .list [.list [.text "2"]])])])]

/-- the identifiers and the edges of its document -/
theorem builds_mixedDraft :
    ∃ built d, build .standard firstSources (.object mixedDraft) = .ok built ∧
      Connections.normalize (Value.field "connections" built.document) = .ok d ∧
      (Document.nodesOf (Value.field "nodes" built.document)).map (fun n => (n.name.text?, (n.get "id").text?)) =
        [(some "Begin", some "1"), (some "First", some "2"), (some "Second", some "3")] ∧
      d.links.map (fun l => (l.source, l.edge.node)) = [(.text "Begin", "First"), (.text "First", "First")] := by
  have hruns : ((build .standard firstSources (.object mixedDraft)).toOption.any fun built =>
      (Connections.normalize (Value.field "connections" built.document)).toOption.any fun d =>
        decide ((Document.nodesOf (Value.field "nodes" built.document)).map
            (fun n => (n.name.text?, (n.get "id").text?)) =
          [(some "Begin", some "1"), (some "First", some "2"), (some "Second", some "3")] ∧
          d.links.map (fun l => (l.source, l.edge.node)) =
            [(.text "Begin", "First"), (.text "First", "First")])) = true := by
    -- the connections mention names in order, and sorting is nothing that the kernel computes
    simp only [build, rekey, mentioned_eq]
    decide +kernel
  obtain ⟨built, hbuilt, hshows⟩ := exists_ok_of_any hruns
  obtain ⟨d, hread, hshows⟩ := exists_ok_of_any hshows
  exact ⟨built, d, hbuilt, hread, of_decide_eq_true hshows⟩

/-- **A built document can lose an identifier and be rewired**: no two nodes of the draft give the same identifier, but
the one that is given has been assigned before, and all edges from and to its node are those of another. -/
theorem build_rewires :
    ((Document.nodesOf (Value.field "nodes" mixedDraft)).filterMap fun e => givenId? e.fields).Nodup ∧
      ∃ built nodes d, build .standard firstSources (.object mixedDraft) = .ok built ∧
        Document.Holds built.document nodes d ∧ (∀ n ∈ nodes, n.name ≠ .text "2") ∧
        (∀ n ∈ nodes, n.name = .text "Second" → n.get "id" ≠ .text "2") ∧
        ∀ l ∈ d.links, l.source ≠ .text "Second" ∧ l.edge.node ≠ "Second" := by
  obtain ⟨built, d, hbuilt, hread, hnodes, hlinks⟩ := builds_mixedDraft
  obtain ⟨nodes, d', hwell⟩ := build_wellBuilt hbuilt
  rw [hwell.connections_field, Connections.normalize_toValue hwell.canonical] at hread
  cases hread
  rw [hwell.nodesOf] at hnodes
  refine ⟨by decide +kernel, built, nodes, d, hbuilt, hwell.toHolds, ?_, ?_, ?_⟩
  · intro n hn hname
    have hmem := List.mem_map_of_mem (f := fun n : Node => (n.name.text?, (n.get "id").text?)) hn
    rw [hnodes, hname] at hmem
    simp [Value.text?] at hmem
  · intro n hn hname hid
    have hmem := List.mem_map_of_mem (f := fun n : Node => (n.name.text?, (n.get "id").text?)) hn
    rw [hnodes, hname, hid] at hmem
    simp [Value.text?] at hmem
  · intro l hl
    have hmem := List.mem_map_of_mem (f := fun l : Link => (l.source, l.edge.node)) hl
    rw [hlinks] at hmem
    simp only [List.mem_cons, Prod.mk.injEq, List.not_mem_nil, or_false] at hmem
    rcases hmem with ⟨hsource, htarget⟩ | ⟨hsource, htarget⟩
    · rw [hsource, htarget]
      exact ⟨by decide, by decide⟩
    · rw [hsource, htarget]
      exact ⟨by decide, by decide⟩

/-- in that draft the node before has the identifier -/
theorem build_honours_mixedDraft :
    minimalShape (.object mixedDraft) = .ok mixedDraft ∧
      ∃ built, build .standard firstSources (.object mixedDraft) = .ok built ∧
        ∃ c nodes d stands, Connections.load (Value.field "connections" mixedDraft) = .ok c ∧
          Document.Holds built.document nodes d ∧ Honours mixedDraft c nodes d stands := by
  have hdraft : minimalShape (.object mixedDraft) = .ok mixedDraft := rfl
  obtain ⟨built, -, hbuilt, -⟩ := builds_mixedDraft
  exact ⟨hdraft, built, hbuilt, build_honours hdraft hbuilt⟩

end Draft

end WorkflowGraph
