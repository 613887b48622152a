import WorkflowGraph.Plan.Reading
import WorkflowGraph.Proofs.Draft.NodeSet
import WorkflowGraph.Proofs.Repair.Built
import WorkflowGraph.Proofs.Synthesis.Requirements
/-
Names that nodes can have. Whatever comes to be the name of a node is a title, a text that is not empty and has no blanks
around it. A title that an input asks for is the name of some node, be it another one than it was asked for.

- `titled_keepNodes`, `titled_lay`, `titled_repair`: all names in a document are titles.
- `known_keepNodes`, `known_lay`: the titles in an input are names.
- `trimmed_read`: a requirement of a plan has a title, or it is called nothing.
-/
namespace WorkflowGraph

/-! ## Titles -/

/-- a text that is not empty and has no blanks around it -/
structure Text.IsTitle (s : String) : Prop where
  filled : s ≠ ""
  trimmed : Text.strip s = s

theorem Text.IsTitle.not_blank {s : String} (h : Text.IsTitle s) : Text.isBlankText s = false := by
  rw [← h.trimmed]
  exact Text.isBlankText_strip (by rw [h.trimmed]; simpa using h.filled)

namespace NameRegistry

theorem isTitle_freshName (r : NameRegistry) (wanted : String) : Text.IsTitle (r.freshName wanted) :=
  ⟨r.freshName_ne_empty wanted, r.strip_freshName wanted⟩

/-- a title that is wanted is handed out unless it is taken -/
theorem mem_taken_or (r : NameRegistry) {wanted : String} (h : Text.IsTitle wanted) :
    wanted ∈ r.taken ∨ r.freshName wanted = wanted := by
  by_cases hmem : wanted ∈ r.taken
  · exact Or.inl hmem
  · exact Or.inr (freshName_of_new h.filled h.trimmed hmem)

end NameRegistry

/-- the names of nodes are titles -/
def Titled (nodes : List Node) : Prop := ∀ n ∈ nodes, ∃ s, n.name = .text s ∧ Text.IsTitle s

theorem Titled.of_known {nodes : List Node} (h : Titled nodes) {s : String} (hs : Known nodes s) : Text.IsTitle s := by
  obtain ⟨n, hn, hname⟩ := hs
  obtain ⟨title, htitle, hproper⟩ := h n hn
  cases hname.symm.trans htitle
  exact hproper

/-! ## Drafts -/

namespace Draft

variable {resolver : Resolver} {sources : Identifiers} {draft raw : Fields} {s : String}

theorem titled_keepNodes : Titled (keepNodes resolver sources draft).nodes := by
  have hformed := formed_keepNodes resolver sources draft
  intro n hn
  have hmem : n.name ∈ (keepNodes resolver sources draft).used.names.taken.reverse.map Value.text :=
    hformed.names.texts ▸ List.mem_map_of_mem hn
  obtain ⟨s, hs, hname⟩ := List.mem_map.1 hmem
  obtain ⟨hfilled, htrimmed⟩ := hformed.trimmed s (List.mem_reverse.1 hs)
  exact ⟨s, hname.symm, hfilled, htrimmed⟩

theorem wantedName_of_title (hname : Value.field "name" raw = .text s) (h : Text.IsTitle s) (type : String) :
    wantedName raw type = s := by
  unfold wantedName
  rw [hname]
  simp [h.not_blank, h.trimmed]

/-- the title that an entry gives is taken when its node is kept, by this node or by one before -/
theorem taken_keepNode (hname : Value.field "name" raw = .text s) (h : Text.IsTitle s) (index : Nat) (used : Used) :
    s ∈ (keepNode resolver index used raw).2.1.names.taken := by
  rw [names_keepNode, name_keepNode, wantedName_of_title hname h, NameRegistry.take, List.mem_cons]
  exact (used.names.mem_taken_or h).symm.imp_left Eq.symm

theorem taken_keepNodes (resolver : Resolver) (sources : Identifiers) :
    ∀ entry ∈ Document.nodesOf (Value.field "nodes" draft), ∀ s, entry.name = .text s → Text.IsTitle s →
      s ∈ (keepNodes resolver sources draft).used.names.taken := by
  apply keepNodes_induction (P := fun done state => ∀ entry ∈ done, ∀ s, entry.name = .text s → Text.IsTitle s →
    s ∈ state.used.names.taken) resolver sources draft
  · simp
  · intro done state raw index _ hdone
    rw [used_keepEntry, List.forall_mem_append]
    refine ⟨fun entry hentry s hname h => ?_, List.forall_mem_singleton.2 fun s hname h => ?_⟩
    · rw [names_keepNode]
      exact List.mem_cons_of_mem _ (hdone entry hentry s hname h)
    · exact taken_keepNode hname h index state.used
  · exact fun _ _ _ hdone => hdone

/-- a title that an entry gives is the name of a node -/
theorem known_keepNodes {entry : Node} (hentry : entry ∈ Document.nodesOf (Value.field "nodes" draft))
    (hname : entry.name = .text s) (h : Text.IsTitle s) : Known (keepNodes resolver sources draft).nodes s := by
  have hformed := formed_keepNodes resolver sources draft
  have htaken := taken_keepNodes resolver sources entry hentry s hname h
  have hmem : Value.text s ∈ (keepNodes resolver sources draft).nodes.map Node.name := by
    show Value.text s ∈ (keepNodes resolver sources draft).nodes.map (·.get "name")
    rw [hformed.names.texts]
    exact List.mem_map_of_mem (List.mem_reverse.2 htaken)
  exact List.mem_map.1 hmem

end Draft

/-! ## Plans -/

namespace Plan

/-- no step has blanks around its name -/
theorem strip_flowStep (line : List Char) : Text.strip (flowStep line).name = (flowStep line).name := by
  show Text.strip (String.ofList (stepName line)) = String.ofList (stepName line)
  unfold stepName
  dsimp only
  split
  · exact Text.strip_trim _
  · exact Text.strip_trim _

/-- the name on a line is trimmed -/
theorem exists_of_boldStep? {line name : List Char} (h : boldStep? line = some name) :
    ∃ cs, name = Text.trim Text.isBlank cs := by
  unfold boldStep? at h
  dsimp only at h
  split at h
  · split at h
    · split at h
      · split at h
        · split at h
          · cases h
          · cases h
            exact ⟨_, rfl⟩
        · cases h
      · cases h
    · cases h
  · cases h

theorem strip_boldStep {line name : List Char} (h : boldStep? line = some name) (below : List (List Char)) :
    Text.strip (boldStep name below).name = (boldStep name below).name := by
  obtain ⟨cs, rfl⟩ := exists_of_boldStep? h
  exact Text.strip_trim cs

theorem strip_boldSteps (ls : List (List Char)) : ∀ s ∈ boldSteps ls, Text.strip s.name = s.name := by
  induction ls with
  | nil => simp [boldSteps]
  | cons line rest ih =>
    rw [boldSteps]
    split
    · rename_i name hname
      exact List.forall_mem_cons.2 ⟨strip_boldStep hname rest, ih⟩
    · exact ih

theorem strip_requirements (resolver : Resolver) (branchId : Int) {steps : List Step}
    (h : ∀ s ∈ steps, Text.strip s.name = s.name) :
    ∀ r ∈ requirements resolver branchId steps, Text.strip r.name = r.name := by
  intro r hr
  obtain ⟨s, hs, rfl⟩ := List.mem_map.1 hr
  exact h s ((List.dropWhile_sublist _).mem hs)

/-- the names in branches have no blanks around them -/
def Trimmed (branches : List PlanBranch) : Prop := ∀ b ∈ branches, ∀ r ∈ b.requirements, Text.strip r.name = r.name

theorem trimmed_sectionBranches (resolver : Resolver) (cs : List Char) : Trimmed (sectionBranches resolver cs) := by
  intro b hb
  obtain ⟨⟨s, i⟩, -, rfl⟩ := List.mem_map.1 hb
  refine strip_requirements resolver _ fun step hstep => ?_
  obtain ⟨line, -, rfl⟩ := List.mem_map.1 hstep
  exact strip_flowStep line

theorem trimmed_stepBranches (resolver : Resolver) (cs : List Char) : Trimmed (stepBranches resolver cs) := by
  have hsteps := strip_requirements resolver 1 (strip_boldSteps (Text.lines cs))
  unfold stepBranches
  cases hrs : requirements resolver 1 (boldSteps (Text.lines cs)) with
  | nil => simp [Trimmed]
  | cons r rs => exact List.forall_mem_singleton.2 (hrs ▸ hsteps)

/-- the branches that are read are those of some grammar -/
theorem trimmed_readBranches {resolver : Resolver} {cs : List Char} {gs : List Grammar}
    (h : ∀ g ∈ gs, Trimmed (g.branches resolver cs)) : Trimmed (readBranches resolver cs gs).1 := by
  induction gs with
  | nil => simp [readBranches, Trimmed]
  | cons g gs ih =>
    rw [List.forall_mem_cons] at h
    unfold readBranches
    dsimp only
    split
    · exact ih h.2
    · exact h.1

/-- no requirement of a plan has blanks around its name -/
theorem trimmed_read (resolver : Resolver) (text : String) : Trimmed (read resolver text).1.branches := by
  have hbranches : (read resolver text).1.branches = (readBranches resolver text.toList grammars).1 := rfl
  rw [hbranches]
  refine trimmed_readBranches fun g hg => ?_
  simp only [grammars, List.mem_cons, List.not_mem_nil, or_false] at hg
  rcases hg with rfl | rfl
  · exact trimmed_sectionBranches resolver _
  · exact trimmed_stepBranches resolver _

end Plan

namespace Synthesis

open Canvas

variable {cfg : BuildConfig} {sources : Identifiers} {p : Plan}

theorem titled_lay : Titled ((lay cfg sources p).nodes.map PlacedNode.toNode) := by
  intro n hn
  obtain ⟨m, hm, rfl⟩ := List.mem_map.1 hn
  obtain ⟨before, after, hsplit⟩ := List.append_of_mem hm
  obtain ⟨wanted, hname, -⟩ := (claimed_lay cfg sources p).claims before m after hsplit
  refine ⟨m.name, rfl, ?_⟩
  rw [hname]
  exact NameRegistry.isTitle_freshName _ wanted

/-- a title that is claimed is the name of the node that it was claimed for, or of one before -/
theorem exists_of_claims {before : List PlacedNode} {n : PlacedNode} {wanted : String} (h : Claims before n wanted)
    (htitle : Text.IsTitle wanted) : ∃ m ∈ before ++ [n], m.name = wanted := by
  rcases NameRegistry.mem_taken_or ⟨(before.map (·.name)).reverse⟩ htitle with htaken | hfresh
  · obtain ⟨m, hm, hname⟩ := List.mem_map.1 (List.mem_reverse.1 htaken)
    exact ⟨m, List.mem_append_left _ hm, hname⟩
  · exact ⟨n, List.mem_append_right _ List.mem_cons_self, h.trans hfresh⟩

/-- a title that a requirement has is the name of a node -/
theorem known_lay {b : PlanBranch} (hb : b ∈ p.branches) {r : Requirement} (hr : r ∈ b.requirements)
    (h : Text.IsTitle r.name) : Known ((lay cfg sources p).nodes.map PlacedNode.toNode) r.name := by
  have hrealizes := realizes_lay cfg sources p
  obtain ⟨k, hk⟩ := List.getElem?_of_mem hb
  obtain ⟨t, body, answer, hnodes, -, -, hbody, -⟩ := hrealizes.laid k b hk
  rw [← hbody] at hr
  obtain ⟨n, hn, horigin⟩ := List.mem_filterMap.1 hr
  have hmem : n ∈ (lay cfg sources p).nodes := by
    refine List.mem_of_mem_filter (p := fun n => n.branch = some k) (hnodes ▸ ?_)
    exact List.mem_append_left _ (List.mem_cons_of_mem _ hn)
  obtain ⟨before, after, hsplit⟩ := List.append_of_mem hmem
  have hstep : n.origin = .step r := by
    cases horigin' : n.origin with
    | step q =>
      rw [horigin'] at horigin
      cases horigin
      rfl
    | _ =>
      rw [horigin'] at horigin
      cases horigin
  obtain ⟨m, hm, hname⟩ := exists_of_claims (hrealizes.steps before n after hsplit r hstep) h
  refine ⟨m.toNode, List.mem_map_of_mem ?_, congrArg Value.text hname⟩
  rw [hsplit, List.append_cons]
  exact List.mem_append_left _ hm

end Synthesis

/-! ## Repairs -/

namespace Repair

/-- a repair makes up titles only -/
theorem titled_mend {cfg : BuildConfig} {s t : State} (hw : WellNamed s.nodes) (h : mend cfg s = .ok t)
    (hs : Titled s.nodes) : Titled t.nodes := by
  refine mend_induction (P := fun s => Titled s.nodes) hw h hs ?_ ?_ ?_
  · intro u registry sw v registry' _ _ _ hrec hu
    obtain ⟨source, -, hcase⟩ := reconverges_of_eq_ok hrec
    cases hcase with
    | alone detail hfew => exact hu
    | joined first others origin place right spacing detail hends hmany horigin hright hspacing hplace =>
      refine List.forall_mem_append.2 ⟨hu, List.forall_mem_singleton.2 ?_⟩
      exact ⟨_, name_mergeNode _ _ _ _, NameRegistry.isTitle_freshName _ _⟩
  · intro u n v _ hn hconnect hu
    rwa [(connectNode_moves hconnect hn).2]
  · intro u candidates n v _ _ _ hchain hu
    obtain ⟨key, -, hcase⟩ := chains_of_eq_ok hchain
    cases hcase with
    | led hled => exact hu
    | unresolved hnone => exact hu
    | chained right hclosed hout hright detail => exact hu

/-- a repair of a document that was built leaves its nodes, and all names are titles still -/
theorem titled_repair {cfg : BuildConfig} {document : Fields} {nodes : List Node} {c : Connections} {r : Repaired}
    (hb : Document.WellBuilt document nodes c) (ht : Titled nodes) (h : repair cfg (.object document) = .ok r) :
    Titled (Document.nodesIn r.document) ∧ nodes ⊆ Document.nodesIn r.document := by
  obtain ⟨start, s, -, hsame, hs, rfl⟩ := repair_mends_built hb h
  obtain ⟨added, hadded, -⟩ := moves_merges (mend_moves hs)
  have hin : Document.nodesIn (.object (written document s)) = s.nodes := (holds_written document s).nodesOf
  rw [hin]
  constructor
  · exact titled_mend (hsame ▸ hb.named) hs (hsame ▸ ht)
  · rw [hadded, hsame]
    exact List.subset_append_left _ _

end Repair

end WorkflowGraph
