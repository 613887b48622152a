import WorkflowGraph.Delivery
import WorkflowGraph.Proofs.Delivery
import WorkflowGraph.Proofs.Draft.Preservation
import WorkflowGraph.Proofs.Prompt
import WorkflowGraph.Proofs.Resolver
import WorkflowGraph.Proofs.Synthesis.Decisions
/-
Where the ambiguities of an assessment come from. Two stages tell of doubtful types: a draft's node without a type, and a
step of a plan. All other decisions are made under other rules, so the ambiguities are those of the entries of a draft, or
of the requirements of a plan, one by one and in order.

- `doubts_keepNodes`: the entries of a draft.
- `doubts_read`: the requirements of a plan.
- `make_doubts`: the ambiguities of an assessment.
-/
namespace WorkflowGraph

/-! ## Traces -/

namespace Trace

/-- the ambiguities that a trace tells of -/
def doubts (t : Trace) : List Ambiguity := t.filterMap Ambiguity.ofEvent?

variable {t : Trace} {rules : List String}

theorem doubts_append (t t' : Trace) : doubts (t ++ t') = doubts t ++ doubts t' := List.filterMap_append

theorem doubts_flatMap {α : Type} (l : List α) (f : α → Trace) : doubts (l.flatMap f) = l.flatMap fun a => doubts (f a) :=
  List.filterMap_flatMap

theorem doubts_cons {stage rule : String} (h : rule ≠ Ambiguity.rule) (detail : List (String × Value)) (t : Trace) :
    doubts (Event.of stage rule detail :: t) = doubts t := by
  refine List.filterMap_cons_none ?_
  rw [Ambiguity.ofEvent?]
  exact if_neg h

/-- what is decided under other rules tells of no doubtful type -/
theorem Under.doubts (h : t.Under rules) (hrules : Ambiguity.rule ∉ rules) : Trace.doubts t = [] := by
  refine List.filterMap_eq_nil_iff.2 fun e he => ?_
  have hother : e.rule ≠ Ambiguity.rule := fun heq => hrules (heq ▸ h e he)
  rw [Ambiguity.ofEvent?, if_neg hother]

end Trace

/-- the ambiguity of what has a name and was resolved, if the type is doubtful -/
def Resolution.doubt? (r : Resolution) (name : String) : Option Ambiguity :=
  if r.isAmbiguous then
    some ⟨.text name, .text r.nodeType, r.confidence.toValue, .text r.reasoning, r.alternatives.map Value.text⟩
  else none

/-- the event about a doubtful type tells its ambiguity -/
theorem Trace.doubts_lowConfidence (stage name : String) (r : Resolution) :
    Trace.doubts
      (if r.isAmbiguous then [Event.of stage "low-confidence" (("node", .text name) :: r.toDetail)] else []) =
    (r.doubt? name).toList := by
  unfold Resolution.doubt?
  split
  · rfl
  · rfl

theorem BuildConfig.doubts_resolver (cfg : BuildConfig) (text : String) : Trace.doubts (cfg.resolver text).2 = [] :=
  (Resolver.resolve_decides (r := cfg.resolver text) rfl).under.doubts (by decide)

/-! ## Drafts -/

namespace Draft

/-- the ambiguity of an entry of a draft, if it has no type and the one found for it is doubtful -/
def doubt? (resolver : Resolver) (raw : Fields) : Option Ambiguity :=
  match givenType? raw with
  | some _ => none
  | none => (resolver (describing raw)).1.doubt? (Value.field "name" raw).toTag

variable {cfg : BuildConfig}

theorem doubts_nodeType (index : Nat) (raw : Fields) :
    Trace.doubts (nodeType cfg.resolver index raw).2 = (doubt? cfg.resolver raw).toList := by
  unfold nodeType doubt?
  cases givenType? raw with
  | some given =>
    dsimp only
    split
    · rfl
    · rfl
  | none =>
    dsimp only
    rw [Trace.doubts_append, cfg.doubts_resolver, List.nil_append, decided, Trace.doubts_cons (by decide)]
    exact Trace.doubts_lowConfidence "direct" _ _

/-- the rules for the other fields of a node -/
def fieldRules : List String := ["renamed", "id-assigned", "position-defaulted", "parameters-fixed", "dropped-node"]

theorem doubts_decided {rule : String} (h : rule ∈ fieldRules) (detail : List (String × Value)) :
    Trace.doubts [decided rule detail] = [] :=
  Trace.Under.doubts (Trace.under_event h) (by decide)

theorem under_nodeId (used : List String) (index : Nat) (raw : Fields) : (nodeId used index raw).2.Under fieldRules := by
  unfold nodeId
  dsimp only
  split
  · split
    · exact Trace.under_event (by decide)
    · exact Trace.under_nil _
  · exact Trace.under_event (by decide)

theorem under_nodePosition (name : String) (index : Nat) (raw : Fields) :
    (nodePosition name index raw).2.Under fieldRules := by
  unfold nodePosition
  split
  · exact Trace.under_nil _
  · exact Trace.under_event (by decide)

/-- only the type of a node may be doubtful -/
theorem doubts_keepNode (index : Nat) (used : Used) (raw : Fields) :
    Trace.doubts (keepNode cfg.resolver index used raw).2.2 = (doubt? cfg.resolver raw).toList := by
  have hothers : ∀ {p : Prop} [Decidable p] {rule : String} {detail : List (String × Value)}, rule ∈ fieldRules →
      Trace.doubts (if p then [] else [decided rule detail]) = [] := by
    intro p _ rule detail hrule
    split
    · rfl
    · exact doubts_decided hrule detail
  unfold keepNode
  dsimp only
  rw [Trace.doubts_append, Trace.doubts_append, Trace.doubts_append, Trace.doubts_append, doubts_nodeType,
    (under_nodeId _ _ _).doubts (by decide), (under_nodePosition _ _ _).doubts (by decide), hothers (by decide),
    hothers (by decide)]
  simp

theorem doubts_foldl_keepEntry (entries : List (Value × Nat)) (s : State) :
    Trace.doubts (entries.foldl (keepEntry cfg.resolver) s).trace = Trace.doubts s.trace ++
      (entries.filterMap fun e => Node.ofValue? e.1).filterMap fun entry => doubt? cfg.resolver entry.fields := by
  induction entries generalizing s with
  | nil => simp
  | cons e entries ih =>
    obtain ⟨v, index⟩ := e
    rw [List.foldl_cons, ih]
    cases v with
    | object raw =>
      rw [keepEntry_object, Trace.doubts_append, doubts_keepNode, List.append_assoc]
      congr 1
      cases hdoubt : doubt? cfg.resolver raw with
      | none => simp [Node.ofValue?, hdoubt]
      | some a => simp [Node.ofValue?, hdoubt]
    | _ =>
      congr 1
      refine (Trace.doubts_append _ _).trans ?_
      rw [doubts_decided (by decide), List.append_nil]

/-- the entries of a draft tell their doubts in order -/
theorem doubts_keepNodes (sources : Identifiers) (draft : Fields) :
    Trace.doubts (keepNodes cfg.resolver sources draft).trace =
      (Document.nodesOf (Value.field "nodes" draft)).filterMap fun entry => doubt? cfg.resolver entry.fields := by
  unfold keepNodes
  cases hnodes : Value.field "nodes" draft with
  | list items =>
    dsimp only
    rw [doubts_foldl_keepEntry, filterMap_zipIdx_ofValue?]
    rfl
  | _ => rfl

/-- the rules for connections that are keyed by names -/
def keyRules : List String := ["id-rekeyed", "dropped-trigger-incoming"]

theorem under_foldl_rekeyRef (refs : References) (names mentions : List String) {acc : Connections × Trace}
    (h : acc.2.Under keyRules) : (mentions.foldl (rekeyRef refs names) acc).2.Under keyRules := by
  induction mentions generalizing acc with
  | nil => exact h
  | cons ref mentions ih =>
    rw [List.foldl_cons]
    refine ih ?_
    unfold rekeyRef
    split
    · exact h.append (Trace.under_event (by decide))
    · exact h

theorem under_foldl_dropIncoming (nodes : List Node) {acc : Connections × Trace} (h : acc.2.Under keyRules) :
    (nodes.foldl dropIncoming acc).2.Under keyRules := by
  induction nodes generalizing acc with
  | nil => exact h
  | cons n nodes ih =>
    rw [List.foldl_cons]
    refine ih ?_
    unfold dropIncoming
    split
    · dsimp only
      split
      · exact h
      · exact h.append (Trace.under_event (by decide))
    · exact h

/-- a draft's doubts are those of its entries -/
theorem doubts_build {sources : Identifiers} {draft : Fields} {built : Built}
    (h : build cfg.resolver sources (.object draft) = .ok built) :
    Trace.doubts built.trace =
      (Document.nodesOf (Value.field "nodes" draft)).filterMap fun entry => doubt? cfg.resolver entry.fields := by
  obtain ⟨fields, hfields, h⟩ := bind_eq_ok.1 h
  obtain ⟨⟨document, sources'⟩, -, h⟩ := bind_eq_ok.1 h
  obtain ⟨c, -, h⟩ := bind_eq_ok.1 h
  cases h
  cases eq_object_of_minimalShape (mapError_eq_ok.1 hfields)
  dsimp only
  rw [Trace.doubts_append, Trace.doubts_append, Trace.doubts_append, doubts_keepNodes,
    (Connections.under_normalizeEvents _).doubts (by decide),
    (under_foldl_rekeyRef _ _ _ (Trace.under_nil _)).doubts (by decide),
    (under_foldl_dropIncoming _ (Trace.under_nil _)).doubts (by decide)]
  simp

end Draft

/-! ## Plans -/

/-- the ambiguity of a requirement whose type is doubtful -/
def Requirement.doubt? (r : Requirement) : Option Ambiguity := r.resolution.bind fun found => found.doubt? r.name

namespace Plan

variable {cfg : BuildConfig}

/-- the ambiguities of the requirements of some branches -/
def doubts (branches : List PlanBranch) : List Ambiguity :=
  (branches.flatMap (·.requirements)).filterMap Requirement.doubt?

theorem doubts_stepEvents (s : Step) (branchId : Int) :
    Trace.doubts (stepEvents cfg.resolver s) =
      (s.requirement branchId (resolveStep cfg.resolver s).1).doubt?.toList := by
  have hquiet : Trace.doubts (resolveStep cfg.resolver s).2 = [] := by
    unfold resolveStep
    split
    · rfl
    · exact cfg.doubts_resolver _
  unfold stepEvents
  dsimp only
  rw [Trace.doubts_append, hquiet, List.nil_append]
  exact Trace.doubts_lowConfidence "extractor" _ _

theorem doubts_requirementEvents (branchId : Int) (steps : List Step) :
    Trace.doubts (requirementEvents cfg.resolver steps) =
      (requirements cfg.resolver branchId steps).filterMap Requirement.doubt? := by
  have helided : Trace.doubts (elisionEvents steps) = [] := by
    have hunder : (elisionEvents steps).Under ["trigger-step-elided"] := by
      intro e he
      obtain ⟨s, -, rfl⟩ := List.mem_map.1 he
      exact List.mem_cons_self
    exact hunder.doubts (by decide)
  unfold requirementEvents requirements
  rw [Trace.doubts_append, helided, List.nil_append, Trace.doubts_flatMap, List.filterMap_map,
    List.filterMap_eq_flatMap_toList]
  exact List.flatMap_congr fun s _ => doubts_stepEvents s branchId

theorem doubts_sectionEvents (cs : List Char) :
    Trace.doubts (sectionEvents cfg.resolver cs) = doubts (sectionBranches cfg.resolver cs) := by
  have hnumbers : ∀ l : List BranchSection,
      l.zipIdx.flatMap (fun e => Trace.doubts (requirementEvents cfg.resolver e.1.steps)) =
        l.flatMap fun s => Trace.doubts (requirementEvents cfg.resolver s.steps) := by
    intro l
    calc l.zipIdx.flatMap (fun e => Trace.doubts (requirementEvents cfg.resolver e.1.steps))
        = (l.zipIdx.map Prod.fst).flatMap fun s => Trace.doubts (requirementEvents cfg.resolver s.steps) := by
          rw [List.flatMap_map]
      _ = l.flatMap fun s => Trace.doubts (requirementEvents cfg.resolver s.steps) := by rw [List.zipIdx_map_fst]
  unfold sectionEvents doubts sectionBranches
  rw [Trace.doubts_flatMap, ← hnumbers, List.filterMap_flatMap, List.flatMap_map]
  exact List.flatMap_congr fun e _ => doubts_requirementEvents _ _

theorem doubts_stepBranchEvents (cs : List Char) :
    Trace.doubts (stepBranchEvents cfg.resolver cs) = doubts (stepBranches cfg.resolver cs) := by
  unfold stepBranchEvents stepBranches
  rw [doubts_requirementEvents 1]
  cases requirements cfg.resolver 1 (boldSteps (Text.lines cs)) with
  | nil => rfl
  | cons r rs => simp [doubts]

/-- a grammar tells the doubts of its branches, and its name is no rule for doubts -/
def Grammar.Tells (cfg : BuildConfig) (g : Grammar) : Prop :=
  (∀ cs, Trace.doubts (g.events cfg.resolver cs) = doubts (g.branches cfg.resolver cs)) ∧ g.name ≠ Ambiguity.rule

theorem tells_grammars (cfg : BuildConfig) : ∀ g ∈ grammars, g.Tells cfg := by
  intro g hg
  simp only [grammars, List.mem_cons, List.not_mem_nil, or_false] at hg
  rcases hg with rfl | rfl
  · exact ⟨doubts_sectionEvents, by decide⟩
  · exact ⟨doubts_stepBranchEvents, by decide⟩

/-- a grammar that yields no branch has told of nothing -/
theorem doubts_readBranches (cs : List Char) {gs : List Grammar} (h : ∀ g ∈ gs, g.Tells cfg) :
    Trace.doubts (readBranches cfg.resolver cs gs).2 = doubts (readBranches cfg.resolver cs gs).1 := by
  induction gs with
  | nil => rfl
  | cons g gs ih =>
    rw [List.forall_mem_cons] at h
    obtain ⟨⟨hevents, hname⟩, hrest⟩ := h
    unfold readBranches
    dsimp only
    split
    · rename_i hnone
      rw [Trace.doubts_append, hevents, List.isEmpty_iff.1 hnone, ih hrest]
      rfl
    · dsimp only
      rw [Trace.doubts_append, hevents, Trace.doubts_cons hname]
      exact List.append_nil _

/-- **A plan's doubts are those of its requirements**, in order. -/
theorem doubts_read (cfg : BuildConfig) (text : String) :
    Trace.doubts (read cfg.resolver text).2 = doubts (read cfg.resolver text).1.branches := by
  have hconcerns : ∀ concerns : List String, Trace.doubts (concerns.map fun (c : String) =>
      Event.of "extractor" "global-requirement" [("requirement", .text c)]) = [] := by
    intro concerns
    induction concerns with
    | nil => rfl
    | cons c concerns ih => rw [List.map_cons, Trace.doubts_cons (by decide), ih]
  unfold read
  dsimp only
  rw [Trace.doubts_append, hconcerns, List.append_nil]
  exact doubts_readBranches _ (tells_grammars cfg)

end Plan

/-! ## The assessment -/

namespace Prompt

theorem doubts_normalizeEvents (maxChars : Int) (cs : List Char) : Trace.doubts (normalizeEvents maxChars cs) = [] := by
  have hbound : Trace.doubts (boundEvents maxChars cs) = [] := by
    unfold boundEvents
    split
    · exact Trace.doubts_cons (by decide) _ _
    · rfl
  have hrules : Ambiguity.rule ∉ rules.map (·.name) := by decide +kernel
  unfold normalizeEvents
  rw [Trace.doubts_append, hbound, List.nil_append]
  unfold cutEvents
  cases hcut : firstCut (bound maxChars cs) with
  | none => exact Trace.doubts_cons (by decide) _ _
  | some cut =>
    obtain ⟨rule, point⟩ := cut
    obtain ⟨earlier, later, hsplit, -⟩ := firstCut_eq_some hcut
    have hrule : rule ∈ rules := hsplit ▸ List.mem_append_right _ List.mem_cons_self
    exact Trace.doubts_cons (fun heq => hrules (heq ▸ List.mem_map_of_mem hrule)) _ _

end Prompt

/-- the plan in a text, once that is normalized -/
def Plan.ofText (cfg : BuildConfig) (text : String) : Plan :=
  (read cfg.resolver (String.ofList (Prompt.normalize cfg.maxInputChars text.toList))).1

/-- the ambiguities of an input: of the entries of a draft, or of the requirements in a text -/
def Input.doubts (cfg : BuildConfig) : Input → List Ambiguity
  | .draft fields =>
    (Document.nodesOf (Value.field "nodes" fields)).filterMap fun entry => Draft.doubt? cfg.resolver entry.fields
  | .prompt text => Plan.doubts (Plan.ofText cfg text).branches

namespace Delivery

variable {cfg : BuildConfig} {repairing : Bool} {sources : Identifiers}

theorem doubts_synthesis {p : Plan} {built : Built} (h : Synthesis.build cfg sources p = .ok built) :
    Trace.doubts built.trace = [] := by
  obtain ⟨⟨document, sources'⟩, -, h⟩ := bind_eq_ok.1 h
  cases h
  exact (Synthesis.noted_lay cfg sources' p).under.doubts (by decide)

theorem doubts_construct {input : Input} {built : Built} {expected : Option (Nat × Nat)}
    (h : construct cfg sources input = .ok (built, expected)) : Trace.doubts built.trace = input.doubts cfg := by
  cases input with
  | draft fields =>
    obtain ⟨b, hb, h⟩ := bind_eq_ok.1 h
    cases h
    exact Draft.doubts_build hb
  | prompt text =>
    simp only [construct] at h
    split at h
    · cases h
    · obtain ⟨b, hb, h⟩ := bind_eq_ok.1 h
      cases h
      dsimp only
      rw [Trace.doubts_append, Trace.doubts_append, Prompt.doubts_normalizeEvents, Plan.doubts_read,
        doubts_synthesis hb, List.nil_append, List.append_nil, Input.doubts, Plan.ofText]

/-- a document is left as it is or repaired -/
theorem settle_cases {document : Value} {settled : Repaired} {report : Report}
    (h : settle cfg repairing document = .ok (settled, report)) :
    settled = ⟨document, 0, []⟩ ∨ repair cfg document = .ok settled := by
  obtain ⟨first, -, h⟩ := bind_eq_ok.1 h
  split at h
  · cases h
    exact Or.inl rfl
  · obtain ⟨repaired, hrepaired, h⟩ := bind_eq_ok.1 h
    split at h
    · cases h
      exact Or.inr hrepaired
    · obtain ⟨second, -, h⟩ := bind_eq_ok.1 h
      cases h
      exact Or.inr hrepaired

/-- a repair of a document that was built tells of no doubtful type -/
theorem doubts_repair {document : Fields} {nodes : List Node} {c : Connections} {r : Repaired}
    (hb : Document.WellBuilt document nodes c) (h : repair cfg (.object document) = .ok r) :
    Trace.doubts r.trace = [] := by
  obtain ⟨start, s, hstart, -, hs, rfl⟩ := Repair.repair_mends_built hb h
  exact (Repair.under_mended hstart hs).doubts (by decide)

/-- what a document that is handed over was made from, and where its ambiguities are told -/
theorem make_eq_ok {finish : PostProcessor} {input : Input} {d : Delivery}
    (h : make cfg finish repairing sources input = .ok d) :
    ∃ built expected settled report, construct cfg sources input = .ok (built, expected) ∧
      settle cfg repairing (.object built.document) = .ok (settled, report) ∧
      finish settled.document = .ok d.document ∧
      d.assessment.ambiguities = Trace.doubts (built.trace ++ settled.trace) := by
  obtain ⟨⟨built, expected⟩, hbuilt, h⟩ := bind_eq_ok.1 h
  obtain ⟨⟨settled, report⟩, hsettled, h⟩ := bind_eq_ok.1 h
  obtain ⟨needed, -, h⟩ := bind_eq_ok.1 h
  obtain ⟨finished, hfinished, h⟩ := bind_eq_ok.1 h
  cases h
  exact ⟨built, expected, settled, report, hbuilt, hsettled, hfinished, rfl⟩

/-- **The ambiguities of an assessment are those of the input.** -/
theorem make_doubts {finish : PostProcessor} {input : Input} {d : Delivery}
    (h : make cfg finish repairing sources input = .ok d) : d.assessment.ambiguities = input.doubts cfg := by
  obtain ⟨built, expected, settled, report, hbuilt, hsettled, -, hambiguities⟩ := make_eq_ok h
  obtain ⟨nodes, c, hwell⟩ := construct_wellBuilt hbuilt
  have hsettle : Trace.doubts settled.trace = [] := by
    rcases settle_cases hsettled with rfl | hrepair
    · rfl
    · exact doubts_repair hwell hrepair
  rw [hambiguities, Trace.doubts_append, doubts_construct hbuilt, hsettle, List.append_nil]

end Delivery

end WorkflowGraph
