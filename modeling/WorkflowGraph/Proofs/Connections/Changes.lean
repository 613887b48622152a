import WorkflowGraph.Proofs.Connections.Reading
import WorkflowGraph.Proofs.Connections.Rename
/-
Connections that change step by step. Adding an edge, opening ports and removing edges leave no port with an edge twice.
A change of a name merges ports with care, but what it makes of two edges on one port may be the same edge, and then it
stays there twice.

- `Apart.portAt_rename`, `Keyed.mem_links_rename`: the ports and the edges of renamed connections.
- `simple_rename_iff`: what a change of a name does to connections without repeated edges.
- `simple_run_iff`: the same for any run of changes.
-/
namespace WorkflowGraph

/-! ## Names changed -/

/-- a name with one name replaced by another -/
def redirect (old new s : String) : String := if s = old then new else s

theorem redirect_self (s : String) : redirect s s = id := by
  funext t
  by_cases h : t = s
  · rw [redirect, if_pos h, h, id]
  · rw [redirect, if_neg h, id]

/-- a source with its name changed; what is no text is no name -/
def Key.renamed (f : String → String) : Key → Key
  | .text s => .text (f s)
  | k => k

theorem Key.eq_of_renamed {f : String → String} {source source₀ : Key} (h : source₀.renamed f = source)
    (hs : ¬ ∃ s, source = .text s) : source₀ = source := by
  cases source₀ with
  | text t => exact absurd ⟨_, h.symm⟩ hs
  | _ => exact h

/-- an edge with the name of its target changed -/
def Edge.renamed (f : String → String) (e : Edge) : Edge := ⟨f e.node, e.type, e.index⟩

theorem Edge.renamed_renamed (f g : String → String) (e : Edge) : (e.renamed f).renamed g = e.renamed (g ∘ f) := rfl

/-- an edge with the names of its ends changed -/
def Link.renamed (f : String → String) (l : Link) : Link :=
  ⟨l.source.renamed f, l.portType, l.port, l.edge.renamed f⟩

theorem Link.renamed_id (l : Link) : l.renamed id = l := by
  obtain ⟨source, portType, port, e⟩ := l
  cases source <;> rfl

theorem Link.renamed_renamed (f g : String → String) (l : Link) : (l.renamed f).renamed g = l.renamed (g ∘ f) := by
  obtain ⟨source, portType, port, e⟩ := l
  cases source <;> rfl

namespace Connections

theorem retarget_eq (old new : String) : Edge.retarget old new = WorkflowGraph.Edge.renamed (redirect old new) := by
  funext e
  unfold Edge.retarget WorkflowGraph.Edge.renamed redirect
  split
  · rfl
  · rfl

/-! ## Tables without double entries -/

/-- no source has two entries, and no port type of a source -/
structure Apart (c : Connections) : Prop where
  sources : c.table.Distinct
  types : ∀ x ∈ c.table, Table.Distinct x.2

theorem Keyed.apart {c : Connections} (h : Keyed c) : Apart c := ⟨h.distinct, h.types⟩

theorem Apart.modifyPorts {c : Connections} (h : Apart c) (source : Key) (portType : String)
    (f : List Port → List Port) : Apart (c.modifyPorts source portType f) where
  sources := Table.distinct_modify h.sources
  types := Table.forall_modify (P := fun (_ : Key) (t : PortTable) => Table.Distinct t) h.types
    (Table.distinct_modify Table.distinct_nil) fun _ _ _ ht => Table.distinct_modify ht

theorem Apart.mapPorts {c : Connections} (h : Apart c) (f : Port → Port) : Apart (c.mapPorts f) where
  sources := by
    rw [mapPorts_table]
    exact Table.distinct_map (fun e => e.2.map fun y => (y.1, y.2.map f)) h.sources
  types := by
    intro x hx
    obtain ⟨a, ha, rfl⟩ := List.mem_map.1 hx
    exact Table.distinct_map (fun e => e.2.map f) (h.types a ha)

theorem Apart.rename {c : Connections} (h : Apart c) (old new : String) : Apart (c.rename old new) := by
  by_cases hne : old = new
  · rwa [Connections.rename, if_pos hne]
  · rw [rename_of_ne c hne]
    apply Apart.mapPorts
    apply moveSource_induction
    · exact ⟨Table.distinct_remove _ h.sources, fun x hx => h.types x (List.mem_of_mem_eraseP hx)⟩
    · exact fun d y _ hd => hd.modifyPorts _ _ _

/-- an edge of the connections stands on a port -/
theorem Apart.mem_portAt {c : Connections} (h : Apart c) {l : Link} (hl : l ∈ c.links) :
    l.edge ∈ c.portAt l.source l.portType l.port := by
  obtain ⟨⟨k, t⟩, hx, hk, ⟨pt, ports⟩, hy, hpt, he⟩ := mem_links_iff.1 hl
  simp only at hk hpt
  subst hk hpt
  unfold portAt Connections.ports portTable
  rw [Table.get?_of_mem h.sources hx, Option.getD_some, Table.get?_of_mem (h.types _ hx) hy, Option.getD_some]
  exact he

/-- the edges on the ports of a source are edges of the connections, with the source as it is written there -/
theorem exists_source (c : Connections) (source : Key) : ∃ source' : Key, (source' == source) = true ∧
    ∀ portType i, ∀ e ∈ c.portAt source portType i, (⟨source', portType, i, e⟩ : Link) ∈ c.links := by
  cases ht : Table.get? source c.table with
  | none =>
    refine ⟨source, BEq.rfl, fun portType i e he => ?_⟩
    simp [portAt, Connections.ports, portTable, ht, Table.get?] at he
  | some t =>
    obtain ⟨source', hsource, hmem⟩ := Table.exists_mem_of_get? ht
    refine ⟨source', hsource, fun portType i e he => ?_⟩
    unfold portAt Connections.ports portTable at he
    rw [ht, Option.getD_some] at he
    cases hp : Table.get? portType t with
    | none => simp [hp] at he
    | some ports =>
      rw [hp, Option.getD_some] at he
      obtain ⟨portType', htype, hmem'⟩ := Table.exists_mem_of_get? hp
      exact mem_links_iff.2 ⟨_, hmem, rfl, _, hmem', by simpa using htype, he⟩

/-- the edges on the ports of a name -/
theorem mem_links_of_mem_portAt {c : Connections} {s portType : String} {i : Nat} {e : Edge}
    (he : e ∈ c.portAt (.text s) portType i) : (⟨.text s, portType, i, e⟩ : Link) ∈ c.links := by
  obtain ⟨source, hsource, hlinks⟩ := c.exists_source (.text s)
  rw [Key.eq_text_of_beq hsource] at hlinks
  exact hlinks portType i e he

/-- connections are without repeated edges when the ports of all sources are -/
theorem Apart.simple_iff {c : Connections} (h : Apart c) :
    Simple c ↔ ∀ source portType i, (c.portAt source portType i).Nodup := by
  constructor
  · intro hs source portType i
    unfold portAt
    cases hp : (c.ports source portType)[i]? with
    | none => exact List.nodup_nil
    | some p =>
      have hmem := List.mem_of_getElem? hp
      unfold Connections.ports at hmem
      cases hports : Table.get? portType (c.portTable source) with
      | none => simp [hports] at hmem
      | some ports =>
        rw [hports, Option.getD_some] at hmem
        obtain ⟨portType', -, hy⟩ := Table.exists_mem_of_get? hports
        exact EachPort.portTable hs source (portType', ports) hy p hmem
  · rintro hports ⟨source, t⟩ hx ⟨portType, ports⟩ hy p hp
    obtain ⟨i, hi⟩ := List.mem_iff_getElem?.1 hp
    have hport := hports source portType i
    unfold portAt Connections.ports portTable at hport
    rwa [Table.get?_of_mem h.sources hx, Option.getD_some, Table.get?_of_mem (h.types _ hx) hy, Option.getD_some, hi,
      Option.getD_some] at hport

/-! ## Ports of renamed connections -/

theorem portAt_modifyPorts (c : Connections) (source source' : Key) (portType portType' : String)
    (f : List Port → List Port) (i : Nat) :
    (c.modifyPorts source portType f).portAt source' portType' i =
      if (source == source') = true ∧ portType = portType' then ((f (c.ports source portType))[i]?).getD []
      else c.portAt source' portType' i := by
  unfold portAt
  rw [ports_modifyPorts]
  split <;> rfl

/-- the edges of one port added to another, those already there left out -/
def joined (kept moved : Port) : Port := moved.foldl (fun p e => insertEdge e p) kept

theorem mem_joined {kept moved : Port} {e : Edge} : e ∈ joined kept moved ↔ e ∈ kept ∨ e ∈ moved :=
  mem_foldl_insertEdge

theorem getD_mergePorts (kept moved : List Port) (i : Nat) :
    ((mergePorts kept moved)[i]?).getD [] = joined ((kept[i]?).getD []) ((moved[i]?).getD []) := by
  induction kept generalizing moved i with
  | nil =>
    rw [mergePorts, List.getElem?_map]
    cases moved[i]? <;> rfl
  | cons k kept ih =>
    cases moved with
    | nil => simp [mergePorts, joined]
    | cons m moved =>
      cases i with
      | zero => rfl
      | succ i => exact ih moved i

/-- ports added one type after another -/
theorem portAt_foldl_mergePorts {moved : PortTable} (hm : Table.Distinct moved) (d : Connections) (new : String)
    (source : Key) (portType : String) (i : Nat) :
    (moved.foldl (fun c y => c.modifyPorts (.text new) y.1 (mergePorts · y.2)) d).portAt source portType i =
      if (.text new == source) = true then
        joined (d.portAt source portType i) ((((Table.get? portType moved).getD [])[i]?).getD [])
      else d.portAt source portType i := by
  induction moved generalizing d with
  | nil => simp [Table.get?, joined]
  | cons y moved ih =>
    obtain ⟨t, ports⟩ := y
    have hnew := (List.pairwise_cons.1 hm).1
    rw [List.foldl_cons, ih (List.pairwise_cons.1 hm).2, portAt_modifyPorts, Table.get?]
    by_cases hsource : (Key.text new == source) = true
    · simp only [hsource, if_true, true_and]
      by_cases ht : t = portType
      · subst ht
        have hnone : Table.get? t moved = none := by
          cases hg : Table.get? t moved with
          | none => rfl
          | some ports' =>
            obtain ⟨t', ht', hmem⟩ := Table.exists_mem_of_get? hg
            have hne := hnew _ hmem
            rw [beq_iff_eq] at ht'
            simp [ht'] at hne
        rw [if_pos rfl, getD_mergePorts, hnone, if_pos (beq_self_eq_true t), ports_congr d hsource]
        simp [joined, portAt]
      · rw [if_neg ht, if_neg (by simpa using ht)]
    · rw [if_neg hsource, if_neg hsource, if_neg fun h => hsource h.1]

/-- the edges that a port has once a name is changed, before their targets are: the ports of the old name are added to
those of the new one -/
def merged (c : Connections) (old new : String) (source : Key) (portType : String) (i : Nat) : Port :=
  if (.text new == source) = true then joined (c.portAt (.text new) portType i) (c.portAt (.text old) portType i)
  else if (.text old == source) = true then [] else c.portAt source portType i

/-- the ports of renamed connections -/
theorem Apart.portAt_rename {c : Connections} (h : Apart c) {old new : String} (hne : old ≠ new) (source : Key)
    (portType : String) (i : Nat) :
    (c.rename old new).portAt source portType i =
      (c.merged old new source portType i).map (WorkflowGraph.Edge.renamed (redirect old new)) := by
  have hremoved : ∀ source, (⟨c.table.remove (.text old)⟩ : Connections).portAt source portType i =
      if (.text old == source) = true then [] else c.portAt source portType i := by
    intro source
    unfold portAt Connections.ports portTable
    rw [Table.get?_remove h.sources]
    split
    · simp [Table.get?]
    · rfl
  have htypes : Table.Distinct (c.portTable (.text old)) := by
    unfold portTable
    cases ht : Table.get? (.text old) c.table with
    | none => exact Table.distinct_nil
    | some t =>
      obtain ⟨k, -, hmem⟩ := Table.exists_mem_of_get? ht
      exact h.types _ hmem
  rw [rename_of_ne c hne, portAt_mapPorts _ rfl, retarget_eq, moveSource, portAt_foldl_mergePorts htypes, hremoved,
    merged]
  congr 1
  by_cases hnew : (Key.text new == source) = true
  · have hold : (Key.text old == Key.text new) = false := by simpa [Key.text_beq_text] using hne
    have hsource : source = .text new := Key.eq_text_of_beq (BEq.symm hnew)
    subst hsource
    simp only [BEq.rfl, hold, if_true, Bool.false_eq_true, if_false]
    rfl
  · rw [if_neg hnew, if_neg hnew]

/-- a source under another name than the old one keeps it -/
theorem renamed_redirect_of_ne {old new : String} {source : Key} (h : source ≠ .text old) :
    source.renamed (redirect old new) = source := by
  cases source with
  | text s =>
    have hs : s ≠ old := fun heq => h (congrArg Key.text heq)
    rw [Key.renamed, redirect, if_neg hs]
  | _ => rfl

theorem renamed_redirect_old (old new : String) : (Key.text old).renamed (redirect old new) = .text new := by
  rw [Key.renamed, redirect, if_pos rfl]

/-- the edges of a port are those of all sources that come to be its source -/
theorem mem_merged {c : Connections} {old new : String} (hne : old ≠ new) {source : Key} {portType : String} {i : Nat}
    {e : Edge} : e ∈ c.merged old new source portType i ↔
      ∃ source₀, source₀.renamed (redirect old new) = source ∧ e ∈ c.portAt source₀ portType i := by
  have hstays : (Key.text new).renamed (redirect old new) = .text new :=
    renamed_redirect_of_ne fun heq => hne (Key.text.inj heq).symm
  have hsame : ∀ {s : String}, (Key.text s == source) = true ↔ source = .text s := fun {s} =>
    ⟨fun h => Key.eq_text_of_beq (BEq.symm h), fun h => h ▸ BEq.rfl⟩
  unfold merged
  simp only [hsame]
  constructor
  · intro he
    split at he
    · rename_i hsource
      rw [hsource]
      rcases mem_joined.1 he with he | he
      · exact ⟨_, hstays, he⟩
      · exact ⟨_, renamed_redirect_old old new, he⟩
    · split at he
      · cases he
      · rename_i hold
        exact ⟨source, renamed_redirect_of_ne hold, he⟩
  · rintro ⟨source₀, hsource, he⟩
    by_cases hold : source₀ = .text old
    · rw [hold, renamed_redirect_old] at hsource
      rw [if_pos hsource.symm]
      exact mem_joined.2 (Or.inr (hold ▸ he))
    · rw [renamed_redirect_of_ne hold] at hsource
      subst hsource
      rw [if_neg hold]
      split
      · rename_i hnew
        exact mem_joined.2 (Or.inl (hnew ▸ he))
      · exact he

/-- **The edges of renamed connections** are the old ones, renamed. -/
theorem Keyed.mem_links_rename {c : Connections} (hc : Keyed c) (old new : String) {l : Link} :
    l ∈ (c.rename old new).links ↔ ∃ l₀ ∈ c.links, l₀.renamed (redirect old new) = l := by
  by_cases hne : old = new
  · subst hne
    rw [Connections.rename, if_pos rfl, redirect_self]
    simp only [Link.renamed_id, exists_eq_right]
  · rw [(hc.rename old new).mem_links, hc.apart.portAt_rename hne, List.mem_map]
    simp only [mem_merged hne]
    constructor
    · rintro ⟨e, ⟨source, hsource, he⟩, hedge⟩
      refine ⟨⟨source, l.portType, l.port, e⟩, hc.mem_links.2 he, ?_⟩
      rw [Link.renamed, hsource, hedge]
    · rintro ⟨l₀, hl₀, rfl⟩
      exact ⟨l₀.edge, ⟨l₀.source, rfl, hc.mem_links.1 hl₀⟩, rfl⟩

/-! ## Repeated edges -/

/-- two different edges that a change of names makes the same edge of the same port -/
def Clashes (f : String → String) (c : Connections) : Prop :=
  ∃ l ∈ c.links, ∃ l' ∈ c.links, l.edge ≠ l'.edge ∧ l.renamed f = l'.renamed f

theorem nodup_merged {c : Connections} (hc : Apart c) (hs : Simple c) (old new : String) (source : Key)
    (portType : String) (i : Nat) : (c.merged old new source portType i).Nodup := by
  have hports := hc.simple_iff.1 hs
  unfold merged
  split
  · exact nodup_foldl_insertEdge _ (hports _ _ _)
  · split
    · exact List.nodup_nil
    · exact hports _ _ _

/-- the sources that come to be one source are written so that they come to be one -/
theorem exists_written (c : Connections) (f : String → String) (source : Key) : ∃ written : Key,
    (written == source) = true ∧ ∀ source₀ : Key, source₀.renamed f = source → ∀ portType i,
      ∀ e ∈ c.portAt source₀ portType i,
        ∃ l ∈ c.links, l.source.renamed f = written ∧ l.portType = portType ∧ l.port = i ∧ l.edge = e := by
  by_cases htext : ∃ s, source = .text s
  · obtain ⟨s, rfl⟩ := htext
    refine ⟨.text s, BEq.rfl, fun source₀ hsource portType i e he => ?_⟩
    cases source₀ with
    | text t => exact ⟨_, mem_links_of_mem_portAt he, hsource, rfl, rfl, rfl⟩
    | _ => cases hsource
  · -- a source that is no text stays what it is
    obtain ⟨written, hwritten, hlinks⟩ := c.exists_source source
    have hsame : written.renamed f = written := by
      cases written with
      | text s => exact absurd ⟨s, Key.eq_text_of_beq (BEq.symm hwritten)⟩ htext
      | _ => rfl
    refine ⟨written, hwritten, fun source₀ hsource portType i e he => ?_⟩
    rw [Key.eq_of_renamed hsource htext] at he
    exact ⟨_, hlinks portType i e he, hsame, rfl, rfl, rfl⟩

/-- **A change of a name repeats an edge exactly when it makes two edges the same.** -/
theorem simple_rename_iff {c : Connections} (hc : Apart c) (hs : Simple c) (old new : String) :
    Simple (c.rename old new) ↔ ¬ c.Clashes (redirect old new) := by
  by_cases hne : old = new
  · subst hne
    rw [Connections.rename, if_pos rfl, redirect_self]
    refine iff_of_true hs ?_
    rintro ⟨l, -, l', -, hedge, hsame⟩
    rw [Link.renamed_id, Link.renamed_id] at hsame
    exact hedge (congrArg Link.edge hsame)
  · have hnodup : ∀ source portType i, ((c.rename old new).portAt source portType i).Nodup ↔
        ∀ e ∈ c.merged old new source portType i, ∀ e' ∈ c.merged old new source portType i,
          e.renamed (redirect old new) = e'.renamed (redirect old new) → e = e' := by
      intro source portType i
      rw [hc.portAt_rename hne, List.nodup_map_iff_inj_on (nodup_merged hc hs old new source portType i)]
    rw [(hc.rename old new).simple_iff]
    simp only [hnodup]
    constructor
    · rintro hports ⟨l, hl, l', hl', hedge, hsame⟩
      rw [Link.renamed, Link.renamed, Link.mk.injEq] at hsame
      obtain ⟨hsource, htype, hport, htarget⟩ := hsame
      have hmem := (mem_merged hne).2 ⟨l.source, rfl, hc.mem_portAt hl⟩
      have hmem' := (mem_merged hne).2 ⟨l'.source, hsource.symm, hc.mem_portAt hl'⟩
      rw [← htype, ← hport] at hmem'
      exact hedge (hports _ _ _ _ hmem _ hmem' htarget)
    · intro hclash source portType i e he e' he' hsame
      obtain ⟨source₀, hsource, he⟩ := (mem_merged hne).1 he
      obtain ⟨source₀', hsource', he'⟩ := (mem_merged hne).1 he'
      obtain ⟨written, -, hwritten⟩ := c.exists_written (redirect old new) source
      obtain ⟨l, hl, hls, hlt, hlp, rfl⟩ := hwritten source₀ hsource portType i e he
      obtain ⟨l', hl', hls', hlt', hlp', rfl⟩ := hwritten source₀' hsource' portType i e' he'
      by_contra hedge
      refine hclash ⟨l, hl, l', hl', hedge, ?_⟩
      rw [Link.renamed, Link.renamed, hls, hls', hlt, hlt', hlp, hlp', hsame]

/-! ## Changes -/

/-- what can be done to connections -/
inductive Change where
  | add (source : Key) (portType : String) (port : Int) (e : Edge)
  | ensure (source : Key) (portType : String) (count : Int)
  | remove (target : String)
  | rename (old new : String)

/-- the connections after a change, which may have failed -/
def apply (c : Connections) : Change → Connections
  | .add source portType port e => (c.addAt source portType port e).1
  | .ensure source portType count => c.ensurePorts source portType count.toNat
  | .remove target => c.removeEdgesTo target
  | .rename old new => c.rename old new

def run (c : Connections) (changes : List Change) : Connections := changes.foldl apply c

theorem run_append (c : Connections) (first later : List Change) : c.run (first ++ later) = (c.run first).run later :=
  List.foldl_append

theorem run_snoc (c : Connections) (changes : List Change) (change : Change) :
    c.run (changes ++ [change]) = (c.run changes).apply change :=
  c.run_append changes [change]

theorem addAt_cases (c : Connections) (source : Key) (portType : String) (port : Int) (e : Edge) :
    (c.addAt source portType port e).1 = c.ensurePorts source portType (port + 1).toNat ∨
      ∃ i, (c.addAt source portType port e).1 =
        (c.ensurePorts source portType (port + 1).toNat).addEdge source portType i e := by
  unfold addAt
  dsimp only
  generalize (if port < 0 then _ else port) = position
  split
  · exact Or.inl rfl
  · exact Or.inr ⟨_, rfl⟩

theorem Apart.apply {c : Connections} (h : Apart c) (change : Change) : Apart (c.apply change) := by
  cases change with
  | add source portType port e =>
    rw [Connections.apply]
    rcases addAt_cases c source portType port e with hopened | ⟨i, hadded⟩
    · rw [hopened]
      exact h.modifyPorts _ _ _
    · rw [hadded]
      exact (h.modifyPorts _ _ _).modifyPorts _ _ _
  | ensure source portType count => exact h.modifyPorts _ _ _
  | remove target => exact h.mapPorts _
  | rename old new => exact h.rename old new

theorem Apart.run {c : Connections} (h : Apart c) (changes : List Change) : Apart (c.run changes) := by
  induction changes generalizing c with
  | nil => exact h
  | cons change changes ih => exact ih (h.apply change)

/-- what one change does to connections without repeated edges -/
theorem simple_apply_iff {c : Connections} (hc : Apart c) (hs : Simple c) (change : Change) :
    Simple (c.apply change) ↔ ∀ old new, change = .rename old new → ¬ c.Clashes (redirect old new) := by
  cases change with
  | add source portType port e =>
    refine iff_of_true ?_ (by simp)
    rw [Connections.apply]
    rcases addAt_cases c source portType port e with hopened | ⟨i, hadded⟩
    · rw [hopened]
      exact hs.ensurePorts _ _ _
    · rw [hadded]
      exact (hs.ensurePorts _ _ _).addEdge _ _ _ _
  | ensure source portType count => exact iff_of_true (hs.ensurePorts _ _ _) (by simp)
  | remove target =>
    refine iff_of_true (EachPort.mapPorts hs fun _ p hp => ?_) (by simp)
    exact hp.filter _
  | rename old new =>
    rw [Connections.apply, simple_rename_iff hc hs]
    simp only [Change.rename.injEq, and_imp]
    exact ⟨fun h _ _ hold hnew => hold ▸ hnew ▸ h, fun h => h old new rfl rfl⟩

/-- **A run of changes keeps all ports without repeated edges exactly when none of its changes of names makes two edges
the same.** -/
theorem simple_run_iff {c : Connections} (hc : Apart c) (hs : Simple c) (changes : List Change) :
    (∀ done, done <+: changes → Simple (c.run done)) ↔
      ∀ done old new, done ++ [.rename old new] <+: changes → ¬ (c.run done).Clashes (redirect old new) := by
  constructor
  · intro hall done old new hdone
    have hbefore := hall done ((List.prefix_append _ _).trans hdone)
    have hafter := hall _ hdone
    rw [run_snoc, simple_apply_iff (hc.run done) hbefore] at hafter
    exact hafter old new rfl
  · intro hclash done
    induction done using List.reverseRecOn with
    | nil => exact fun _ => hs
    | append_singleton done change ih =>
      intro hdone
      rw [run_snoc, simple_apply_iff (hc.run done) (ih ((List.prefix_append _ _).trans hdone))]
      rintro old new rfl
      exact hclash done old new hdone

end Connections

end WorkflowGraph
