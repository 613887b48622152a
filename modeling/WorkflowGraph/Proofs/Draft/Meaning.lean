import Mathlib.Data.String.Basic
import WorkflowGraph.Proofs.Connections.Substitution
import WorkflowGraph.Proofs.Draft.Preservation
/-
What the ends of a draft's edges mean. A reference that is no name of a node stands for the name of the node that it
refers to, and the edges of the document are those of the draft between the names that their ends stand for.

- `rekey_induction`: what is kept whenever a reference is replaced.
- `substituted_run`, `substituted_rekey`: a run of replacements, and keying by names, as one substitution.
- `mem_links_rekey`, `mem_links_keyed`: the edges between names, and those of the document.
-/
namespace WorkflowGraph

namespace Draft

/-- the name that a reference stands for; a name, or what refers to nothing, stands for itself -/
def meaning (refs : References) (names : List String) (ref : String) : String := (staleTo? refs names ref).getD ref

section

variable {refs : References} {names : List String}

theorem meaning_eq (refs : References) (names : List String) :
    meaning refs names = fun r => if r ∈ names then r else (Table.get? r refs).getD r := by
  funext r
  unfold meaning staleTo?
  simp only [List.contains_iff_mem]
  split <;> rfl

theorem meaning_of_mem {ref : String} (h : ref ∈ names) : meaning refs names ref = ref := by
  rw [meaning, staleTo?_of_mem refs h, Option.getD_none]

/-- a reference that is replaced by the name that it stands for still means the same -/
theorem meaning_redirect (hnames : ∀ e ∈ refs, e.2 ∈ names) {ref name : String}
    (h : staleTo? refs names ref = some name) : meaning refs names ∘ redirect ref name = meaning refs names := by
  funext s
  rw [Function.comp_apply, redirect]
  split
  · rename_i hs
    rw [meaning_of_mem (of_staleTo?_eq_some hnames h).2, hs, meaning, h, Option.getD_some]
  · rfl

/-! ## Keying by names -/

/-- what holds of canonical connections and is kept whenever a reference is replaced holds when all are; references are
replaced in their order -/
theorem rekey_induction {P : Connections → Prop} (hblank : ∀ e ∈ refs, Text.isBlankText e.2 = false)
    (hnames : ∀ e ∈ refs, e.2 ∈ names) {c : Connections} (hc : c.Canonical) (start : P c)
    (step : ∀ d ref name, d.Canonical → staleTo? refs names ref = some name → Text.isBlankText name = false →
      (∀ s ∈ mentioned d, staleTo? refs names s ≠ none → ref ≤ s) → P d → P (d.rename ref name)) :
    P (rekey refs names c).1 := by
  have run : ∀ (later : List String) (acc : Connections × Trace), later.Pairwise (· ≤ ·) →
      (∀ s ∈ mentioned acc.1, staleTo? refs names s ≠ none → s ∈ later) → acc.1.Canonical → P acc.1 →
      P (later.foldl (rekeyRef refs names) acc).1 := by
    intro later
    induction later with
    | nil => exact fun _ _ _ _ h => h
    | cons ref later ih =>
      intro acc hsorted hlater hacc h
      obtain ⟨hfirst, hsorted⟩ := List.pairwise_cons.1 hsorted
      have hcanonical := canonical_rekeyRef hblank names hacc ref
      rw [List.foldl_cons]
      cases hstale : staleTo? refs names ref with
      | none =>
        have hsame : rekeyRef refs names acc ref = acc := by rw [rekeyRef, hstale]
        rw [hsame]
        refine ih acc hsorted (fun s hs hother => ?_) hacc h
        rcases List.mem_cons.1 (hlater s hs hother) with rfl | hs
        · exact absurd hstale hother
        · exact hs
      | some name =>
        obtain ⟨hother, hname⟩ := of_staleTo?_eq_some hnames hstale
        have hne : ref ≠ name := fun heq => hother (heq ▸ hname)
        have hfilled : Text.isBlankText name = false := by
          unfold staleTo? at hstale
          split at hstale
          · cases hstale
          · obtain ⟨k, -, hk⟩ := Table.exists_mem_of_get? hstale
            exact hblank (k, name) hk
        have hrenamed : (rekeyRef refs names acc ref).1 = acc.1.rename ref name := by rw [rekeyRef, hstale]
        refine ih _ hsorted (fun s hs hs' => ?_) hcanonical ?_
        · rw [hrenamed] at hs
          rcases mentioned_rename hacc.toKeyed hne hs with rfl | ⟨hs, hsne⟩
          · exact absurd (staleTo?_of_mem refs hname) hs'
          · exact (List.mem_cons.1 (hlater s hs hs')).resolve_left hsne
        · rw [hrenamed]
          refine step acc.1 ref name hacc hstale hfilled (fun s hs hs' => ?_) h
          rcases List.mem_cons.1 (hlater s hs hs') with rfl | hs
          · exact le_refl s
          · exact hfirst s hs
  exact run _ _ (List.pairwise_mergeSort' (· ≤ ·) _) (fun _ hs _ => hs) hc start

theorem canonical_rekey (hblank : ∀ e ∈ refs, Text.isBlankText e.2 = false) (names : List String) {c : Connections}
    (hc : c.Canonical) : (rekey refs names c).1.Canonical :=
  canonical_foldl_rekeyRef hblank names _ hc

/-- connections mention the ends of their edges -/
theorem mem_mentioned_target {c : Connections} {l : Link} (hl : l ∈ c.links) : l.edge.node ∈ mentioned c :=
  mem_mentioned.2 (Or.inr (List.mem_map_of_mem hl))

theorem mem_mentioned_source {c : Connections} {l : Link} (hl : l ∈ c.links) {s : String} (hs : l.source = .text s) :
    s ∈ mentioned c := by
  obtain ⟨x, hx, hsource, -⟩ := Connections.mem_links_iff.1 hl
  exact mem_mentioned.2 (Or.inl (hs ▸ hsource ▸ List.mem_map_of_mem hx))

/-- what is resolved means itself -/
theorem renamed_of_resolved {c : Connections} (h : Resolved refs names c) {l : Link} (hl : l ∈ c.links) :
    l.renamed (meaning refs names) = l := by
  have hmeans : ∀ ref ∈ mentioned c, meaning refs names ref = ref := fun ref href => by
    rw [meaning, h ref href, Option.getD_none]
  have hsource : l.source.renamed (meaning refs names) = l.source := by
    cases hs : l.source with
    | text s => rw [Key.renamed, hmeans s (mem_mentioned_source hl hs)]
    | _ => rfl
  rw [Link.renamed, hsource, Edge.renamed, hmeans _ (mem_mentioned_target hl)]

/-! ## Substitution -/

/-- a source with ports is mentioned -/
theorem mem_mentioned_of_ports {c : Connections} {t portType : String} (h : c.ports (.text t) portType ≠ []) :
    t ∈ mentioned c := by
  rw [mem_mentioned]
  unfold Connections.ports Connections.portTable at h
  cases hg : Table.get? (.text t) c.table with
  | none => simp [hg, Table.get?] at h
  | some byType =>
    obtain ⟨k, hk, hmem⟩ := Table.exists_mem_of_get? hg
    rw [Key.eq_text_of_beq hk] at hmem
    exact Or.inl (List.mem_map_of_mem hmem)

/-- connections in which all is resolved are what they mean -/
theorem substituted_of_resolved {c : Connections} (h : Resolved refs names c) :
    c.Substituted (meaning refs names) c := by
  apply Connections.Substituted.of_fixed
  · exact fun l hl => renamed_of_resolved h hl
  · intro t portType hports
    rw [meaning, h t (mem_mentioned_of_ports hports), Option.getD_none]

variable (hnames : ∀ e ∈ refs, e.2 ∈ names)

include hnames

/-- one replacement adds a substitution that changes no meaning -/
theorem substituted_rekeyRef {f : String → String} {c : Connections} {acc : Connections × Trace} (hacc : acc.1.Keyed)
    (h : c.Substituted f acc.1) (hf : meaning refs names ∘ f = meaning refs names) (ref : String) :
    ∃ g, c.Substituted g (rekeyRef refs names acc ref).1 ∧ meaning refs names ∘ g = meaning refs names := by
  cases hstale : staleTo? refs names ref with
  | none => exact ⟨f, by rwa [rekeyRef_of_none hstale], hf⟩
  | some name =>
    refine ⟨redirect ref name ∘ f, ?_, ?_⟩
    · rw [fst_rekeyRef_of_some hstale]
      exact h.trans (Connections.Substituted.rename hacc ref name)
    · rw [← Function.comp_assoc, meaning_redirect hnames hstale, hf]

/-- so does a run of replacements, by induction on their order, whatever it is -/
theorem substituted_run {c : Connections} (order : List String) (acc : Connections × Trace) (hacc : acc.1.Keyed)
    {f : String → String} (h : c.Substituted f acc.1) (hf : meaning refs names ∘ f = meaning refs names) :
    ∃ g, c.Substituted g (order.foldl (rekeyRef refs names) acc).1 ∧
      meaning refs names ∘ g = meaning refs names := by
  induction order generalizing acc f with
  | nil => exact ⟨f, h, hf⟩
  | cons ref order ih =>
    obtain ⟨g, hg, hmeans⟩ := substituted_rekeyRef hnames hacc h hf ref
    exact ih _ (keyed_rekeyRef hacc refs names ref) hg hmeans

/-- replacing all that is mentioned, in whatever order, substitutes what every reference stands for -/
theorem substituted_foldl {c : Connections} (hc : c.Keyed) {order : List String}
    (horder : ∀ ref ∈ mentioned c, ref ∈ order) :
    c.Substituted (meaning refs names) (order.foldl (rekeyRef refs names) (c, [])).1 := by
  obtain ⟨g, hg, hmeans⟩ := substituted_run hnames order (c, []) hc (.refl c) (Function.comp_id _)
  have hresolved : Resolved refs names (order.foldl (rekeyRef refs names) (c, [])).1 :=
    resolved_run hnames order (c, []) hc fun ref href => Or.inl (horder ref href)
  -- what was substituted on the way, followed by the meaning, is the meaning
  have hall := hg.trans (substituted_of_resolved hresolved)
  rwa [hmeans] at hall

/-- **The edges between names** are the edges of the draft, each between the names that its ends stand for. -/
theorem mem_links_rekey {c : Connections} (hc : c.Keyed) {l : Link} :
    l ∈ (rekey refs names c).1.links ↔ ∃ l₀ ∈ c.links, l₀.renamed (meaning refs names) = l :=
  (substituted_foldl hnames hc fun _ href => href).links l

/-- **Keying by names is one simultaneous substitution**: each edge is led from and to what its ends stand for, on the
port where it is, and nothing else is there, in whatever order the references are replaced. -/
theorem substituted_rekey {c : Connections} (hc : c.Keyed) :
    c.Substituted (fun r => if r ∈ names then r else (Table.get? r refs).getD r) (rekey refs names c).1 ∧
      ∀ order : List String, (∀ ref ∈ mentioned c, ref ∈ order) →
        c.Substituted (fun r => if r ∈ names then r else (Table.get? r refs).getD r)
          (order.foldl (rekeyRef refs names) (c, [])).1 := by
  rw [← meaning_eq]
  exact ⟨substituted_foldl hnames hc fun _ href => href, fun order horder => substituted_foldl hnames hc horder⟩

end

/-- two references and a name of one node, which is taken for another node's reference -/
def crossedRefs : References := [("1", "Save"), ("Save ", "Save"), ("2", "Send"), ("Save", "Send")]

/-- connections in which sources come together that lead to themselves and to each other -/
def crossed : Connections := ⟨[
  (.text "1", [("main", [[.plain "2" "main" 0], [.plain "1" "main" 0]])]),
  (.text "2", [("main", [[], [.plain "Save " "main" 0]])]),
  (.text "Save", [("main", [[.plain "Send" "main" 2]])]),
  (.text "Save ", [("main", [[.plain "2" "main" 1]]), ("ai_tool", [[], [.plain "Save" "ai_tool" 0]])])]⟩

theorem substituted_rekey_crossed :
    (∀ e ∈ crossedRefs, e.2 ∈ ["Save", "Send"]) ∧ crossed.Keyed ∧
      crossed.Substituted (fun r => if r ∈ ["Save", "Send"] then r else (Table.get? r crossedRefs).getD r)
        (rekey crossedRefs ["Save", "Send"] crossed).1 ∧
      (rekey crossedRefs ["Save", "Send"] crossed).1.links = [
        ⟨.text "Save", "main", 0, .plain "Send" "main" 2⟩, ⟨.text "Save", "main", 0, .plain "Send" "main" 0⟩,
        ⟨.text "Save", "main", 0, .plain "Send" "main" 1⟩,
        ⟨.text "Save", "main", 1, .plain "Save" "main" 0⟩, ⟨.text "Save", "ai_tool", 1, .plain "Save" "ai_tool" 0⟩,
        ⟨.text "Send", "main", 1, .plain "Save" "main" 0⟩] := by
  have hnames : ∀ e ∈ crossedRefs, e.2 ∈ ["Save", "Send"] := by decide
  have hkeyed : crossed.Keyed := by
    constructor <;> simp [crossed, Table.Distinct, Key.text_beq_text]
  have hmentioned : mentioned crossed = ["1", "2", "Save", "Save ", "Send"] := by
    rw [mentioned_eq]
    decide +kernel
  refine ⟨hnames, hkeyed, (substituted_rekey hnames hkeyed).1, ?_⟩
  rw [rekey, hmentioned]
  decide +kernel

/-! ## The document -/

/-- what the references of a draft stand for once its nodes are kept -/
def State.meaning (kept : State) : String → String :=
  Draft.meaning kept.refs (kept.nodes.filterMap fun n => n.name.text?)

section

variable {resolver : Resolver} {sources : Identifiers} {draft : Fields} {c : Connections}

/-- **The edges of the document** are those of the draft between the names that their ends stand for, except into
triggers. -/
theorem mem_links_keyed (hc : c.Canonical) {l : Link} :
    l ∈ (keyed (keepNodes resolver sources draft) c).links ↔
      (∃ l₀ ∈ c.links, l₀.renamed (keepNodes resolver sources draft).meaning = l) ∧
        l.edge.node ∉ Repair.triggerNames (keepNodes resolver sources draft).nodes := by
  have hblank := (sound_keepNodes resolver sources draft).refs
  have hcanonical := canonical_rekey hblank
    ((keepNodes resolver sources draft).nodes.filterMap fun n => n.name.text?) hc
  rw [keyed_eq, (hcanonical.toKeyed.mapPorts _).mem_links, Connections.portAt_mapPorts _ rfl, List.mem_filter]
  refine and_congr ?_ ?_
  · rw [← hcanonical.toKeyed.mem_links]
    exact mem_links_rekey (referred_keepNodes resolver sources draft) hc.toKeyed
  · simp [Repair.sparesTriggers]

end

end Draft

end WorkflowGraph
