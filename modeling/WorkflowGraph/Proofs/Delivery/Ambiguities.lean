import WorkflowGraph.Proofs.Delivery.Doubts
import WorkflowGraph.Proofs.Delivery.Totality
import WorkflowGraph.Proofs.Titles
/-
Which ambiguities can be found in the document. An ambiguity tells the name that the input gives, before that is trimmed
and before one is made up where none is given, so the node that is doubtful may have another name.

- `titles_make`: the names in a document that is handed over.
- `make_ambiguities`: when every ambiguity tells the name of a node.
- `make_nameless`: an ambiguity that does not.
-/
namespace WorkflowGraph

/-! ## What an ambiguity tells -/

/-- an ambiguity tells the name that is given -/
theorem Resolution.node_of_doubt? {r : Resolution} {name : String} {a : Ambiguity} (h : r.doubt? name = some a) :
    a.node = .text name := by
  unfold Resolution.doubt? at h
  split at h
  · cases h
    rfl
  · cases h

theorem Draft.node_of_doubt? {resolver : Resolver} {raw : Fields} {a : Ambiguity} (h : doubt? resolver raw = some a) :
    a.node = .text (Value.field "name" raw).toTag := by
  unfold doubt? at h
  split at h
  · cases h
  · exact Resolution.node_of_doubt? h

/-- an entry is doubtful when it gives no type and little speaks for the one that is found -/
theorem Draft.isSome_doubt?_iff {resolver : Resolver} {raw : Fields} : (doubt? resolver raw).isSome ↔
    givenType? raw = none ∧ (resolver (describing raw)).1.isAmbiguous = true := by
  unfold doubt? Resolution.doubt?
  cases givenType? raw with
  | some given => simp
  | none =>
    dsimp only
    split <;> simp_all

theorem Requirement.node_of_doubt? {r : Requirement} {a : Ambiguity} (h : r.doubt? = some a) : a.node = .text r.name := by
  obtain ⟨found, -, hfound⟩ := Option.bind_eq_some_iff.1 h
  exact Resolution.node_of_doubt? hfound

/-! ## The names of a document -/

/-- an entry of a draft gives the name of a node in a document: a title, or something else than a text that happens to be
written like the name of a node -/
def Draft.NamesNode (document : Value) (entry : Node) : Prop :=
  match entry.name with
  | .text s => Text.IsTitle s
  | v => Known (Document.nodesIn document) v.toTag

/-- whatever is doubtful in an input has a name that can be found in a document: the entries of a draft give one, and so
do the requirements of a plan, unless they are called nothing -/
def Input.NamesDoubts (cfg : BuildConfig) (document : Value) : Input → Prop
  | .draft fields => ∀ entry ∈ Document.nodesOf (Value.field "nodes" fields),
    (Draft.doubt? cfg.resolver entry.fields).isSome → Draft.NamesNode document entry
  | .prompt text => ∀ b ∈ (Plan.ofText cfg text).branches, ∀ r ∈ b.requirements, r.doubt?.isSome → r.name ≠ ""

/-- an input asks for a name: an entry of a draft gives it, or a requirement of a plan has it -/
def Input.AsksFor (cfg : BuildConfig) (s : String) : Input → Prop
  | .draft fields => ∃ entry ∈ Document.nodesOf (Value.field "nodes" fields), entry.name = .text s
  | .prompt text => ∃ b ∈ (Plan.ofText cfg text).branches, ∃ r ∈ b.requirements, r.name = s

namespace Delivery

variable {cfg : BuildConfig} {repairing : Bool} {sources : Identifiers} {input : Input} {nodes : List Node}

/-- nodes have titles for names, among them those that an input asks for -/
structure Titles (cfg : BuildConfig) (input : Input) (nodes : List Node) : Prop where
  titled : Titled nodes
  known : ∀ s, input.AsksFor cfg s → Text.IsTitle s → Known nodes s

/-- more nodes have the names as well -/
theorem Titles.mono {nodes' : List Node} (h : Titles cfg input nodes) (htitled : Titled nodes') (hsub : nodes ⊆ nodes') :
    Titles cfg input nodes' :=
  ⟨htitled, fun s hasked htitle => (h.known s hasked htitle).mono hsub⟩

theorem titles_construct {built : Built} {expected : Option (Nat × Nat)}
    (h : construct cfg sources input = .ok (built, expected)) :
    Titles cfg input (Document.nodesOf (Value.field "nodes" built.document)) := by
  cases input with
  | draft fields =>
    obtain ⟨b, hb, h⟩ := bind_eq_ok.1 h
    cases h
    obtain ⟨fields', sources', c, hfields, -, hholds, -⟩ := Draft.build_eq_ok hb
    cases Draft.eq_object_of_minimalShape hfields
    rw [hholds.nodesOf]
    refine ⟨Draft.titled_keepNodes, ?_⟩
    rintro s ⟨entry, hentry, hname⟩ htitle
    exact Draft.known_keepNodes hentry hname htitle
  | prompt text =>
    simp only [construct] at h
    split at h
    · cases h
    · obtain ⟨b, hb, h⟩ := bind_eq_ok.1 h
      cases h
      obtain ⟨sources', hshows⟩ := Synthesis.build_shows hb
      rw [hshows.nodesOf]
      refine ⟨Synthesis.titled_lay, ?_⟩
      rintro s ⟨b, hb, r, hr, rfl⟩ htitle
      exact Synthesis.known_lay hb hr htitle

/-- the document that is handed over as it is has the titles that the input asks for -/
theorem titles_make {d : Delivery} (h : make cfg .identity repairing sources input = .ok d) :
    Titles cfg input (Document.nodesIn d.document) := by
  obtain ⟨built, expected, settled, report, hbuilt, hsettled, hfinished, -⟩ := make_eq_ok h
  rw [← Except.ok.inj hfinished]
  have htitles := titles_construct hbuilt
  rcases settle_cases hsettled with rfl | hrepair
  · exact htitles
  · obtain ⟨nodes, c, hwell⟩ := construct_wellBuilt hbuilt
    rw [hwell.nodesOf] at htitles
    obtain ⟨htitled, hsub⟩ := Repair.titled_repair hwell htitles.titled hrepair
    exact htitles.mono htitled hsub

theorem known_entry_iff {fields : Fields} {document : Value}
    (h : Titles cfg (.draft fields) (Document.nodesIn document)) {entry : Node}
    (hentry : entry ∈ Document.nodesOf (Value.field "nodes" fields)) :
    Known (Document.nodesIn document) entry.name.toTag ↔ Draft.NamesNode document entry := by
  unfold Draft.NamesNode
  cases hname : entry.name with
  | text s =>
    rw [Value.toTag_text]
    exact ⟨h.titled.of_known, h.known s ⟨entry, hentry, hname⟩⟩
  | _ => exact Iff.rfl

theorem known_requirement_iff {text : String} (h : Titles cfg (.prompt text) nodes) {b : PlanBranch}
    (hb : b ∈ (Plan.ofText cfg text).branches) {r : Requirement} (hr : r ∈ b.requirements) :
    Known nodes r.name ↔ r.name ≠ "" := by
  have htrimmed : Plan.Trimmed (Plan.ofText cfg text).branches := by
    rw [Plan.ofText]
    exact Plan.trimmed_read _ _
  constructor
  · exact fun hknown => (h.titled.of_known hknown).filled
  · exact fun hfilled => h.known r.name ⟨b, hb, r, hr, rfl⟩ ⟨hfilled, htrimmed b hb r hr⟩

/-- the ambiguities of a list tell names of nodes when what is doubtful in it does -/
theorem forall_ambiguity_iff {α : Type} {l : List α} {doubt? : α → Option Ambiguity} {name : α → String}
    (hname : ∀ x ∈ l, ∀ a, doubt? x = some a → a.node = .text (name x)) :
    (∀ a ∈ l.filterMap doubt?, ∃ n ∈ nodes, n.name = a.node) ↔ ∀ x ∈ l, (doubt? x).isSome → Known nodes (name x) := by
  rw [List.forall_mem_filterMap]
  refine forall₂_congr fun x hx => ?_
  cases hdoubt : doubt? x with
  | none => simp
  | some a => simp [hname x hx a hdoubt, Known]

/-- **When every ambiguity tells the name of a node** of the document that is handed over as it is: when the entries of a
draft whose types are doubtful give names that are titles, and when no requirement of a plan whose type is doubtful is
called nothing. -/
theorem make_ambiguities {d : Delivery} (h : make cfg .identity repairing sources input = .ok d) :
    (∀ a ∈ d.assessment.ambiguities, ∃ n ∈ Document.nodesIn d.document, n.name = a.node) ↔
      input.NamesDoubts cfg d.document := by
  have htitles := titles_make h
  rw [make_doubts h]
  cases input with
  | draft fields =>
    rw [Input.doubts, forall_ambiguity_iff fun entry _ a => Draft.node_of_doubt?]
    exact forall₂_congr fun entry hentry => imp_congr_right fun _ => known_entry_iff htitles hentry
  | prompt text =>
    rw [Input.doubts, Plan.doubts, forall_ambiguity_iff fun r _ a => Requirement.node_of_doubt?, List.forall_mem_flatMap]
    exact forall₂_congr fun b hb => forall₂_congr fun r hr => imp_congr_right fun _ =>
      known_requirement_iff htitles hb hr

/-- a node without a type, at the origin -/
def mqttEntry : Fields := [(.text "name", .text "mqtt"), (.text "position", .list [.int 0, .int 0])]

def mqttDraft : Fields := [(.text "nodes", .list [.object mqttEntry])]

/-- its document is handed over, whatever type is found for the node -/
theorem succeeds_mqttDraft : Succeeds (make .standard .identity false firstIdentifiers (.draft mqttDraft)) := by
  have hfinish : PostProcessor.named "identity" = .ok PostProcessor.identity := rfl
  have hclock : Succeeds firstIdentifiers.versionId := by decide +kernel
  have hdx : Succeeds (Numeric.whole BuildConfig.standard.rowMinDx).toDouble :=
    (Numeric.exists_toDouble (by decide)).imp fun _ hx => hx.1
  have hsx : Succeeds (Numeric.whole BuildConfig.standard.spacingX).toDouble :=
    (Numeric.exists_toDouble (by decide)).imp fun _ hx => hx.1
  have hshape : Draft.HasShape mqttDraft := by decide
  have hbuild : Succeeds (Draft.build BuildConfig.standard.resolver firstIdentifiers (.object mqttDraft)) :=
    (Draft.succeeds_build_iff hshape hclock).2 fun _ hv => absurd hv List.not_mem_nil
  obtain ⟨built, hbuilt⟩ := hbuild
  refine (succeeds_make_draft_iff hfinish).2 ⟨built, hbuilt, ?_⟩
  obtain ⟨nodes, c, hwell⟩ := Draft.build_wellBuilt hbuilt
  obtain ⟨fields, sources', c', hfields, -, hholds, -⟩ := Draft.build_eq_ok hbuilt
  cases Draft.eq_object_of_minimalShape hfields
  have hnodes : nodes = (Draft.keepNodes BuildConfig.standard.resolver sources' mqttDraft).nodes :=
    hwell.nodesOf.symm.trans hholds.nodesOf
  have hcarries : ∀ n ∈ nodes, Graph.carries n = true := by
    rw [hnodes, Draft.carries_keepNodes]
    decide +kernel
  have hplaces : ∀ n ∈ nodes, Succeeds n.place := by
    intro n hn
    rw [hnodes] at hn
    have hkept := (Draft.keeps_keepNodes BuildConfig.standard.resolver sources' mqttDraft).flip
    obtain ⟨entry, hentry, hkeeps⟩ := Value.exists_mem_of_forall₂ hkept hn
    cases List.mem_singleton.1 hentry
    rw [Node.place, hkeeps.position _ rfl]
    decide +kernel
  refine (succeeds_settle_iff hwell hdx hsx).2 ⟨hcarries, ?_⟩
  exact fun _ _ n hn _ _ => ⟨hplaces n hn, fun m hm _ _ => hplaces m hm⟩

theorem make_ambiguities_mqttDraft :
    ∃ d, make .standard .identity false firstIdentifiers (.draft mqttDraft) = .ok d ∧ d.assessment.ambiguities ≠ [] ∧
      ∀ a ∈ d.assessment.ambiguities, ∃ n ∈ Document.nodesIn d.document, n.name = a.node := by
  obtain ⟨d, hd⟩ := succeeds_mqttDraft
  refine ⟨d, hd, ?_, (make_ambiguities hd).2 ?_⟩
  · have hdescribing : Draft.describing mqttEntry = "mqtt" := by decide +kernel
    have hresolver : BuildConfig.standard.resolver = Resolver.standard := by
      simp only [BuildConfig.resolver, BuildConfig.standard, Resolver.standard]
    have hdoubtful : (Draft.doubt? BuildConfig.standard.resolver mqttEntry).isSome := by
      rw [Draft.isSome_doubt?_iff, hdescribing, hresolver, Resolution.isAmbiguous, Resolver.standard_mqtt.2.1]
      exact ⟨rfl, by decide +kernel⟩
    obtain ⟨a, ha⟩ := Option.isSome_iff_exists.1 hdoubtful
    have hmem : (⟨mqttEntry⟩ : Node) ∈ Document.nodesOf (Value.field "nodes" mqttDraft) := List.mem_cons_self
    rw [make_doubts hd, Input.doubts]
    exact List.ne_nil_of_mem (List.mem_filterMap.2 ⟨_, hmem, ha⟩)
  · intro entry hentry _
    cases List.mem_singleton.1 hentry
    exact ⟨by decide, by decide +kernel⟩

/-- a draft of one node of which nothing is known -/
def blankDraft : Fields := [(.text "nodes", .list [.object []])]

/-- **An ambiguity may tell a name that no node has**: a node without a name is given one, which its ambiguity does not
tell. -/
theorem make_nameless :
    ∃ d, make .standard .identity true firstIdentifiers (Input.ofValue (.object blankDraft)) = .ok d ∧
      ¬ ∀ a ∈ d.assessment.ambiguities, ∃ n ∈ Document.nodesIn d.document, n.name = a.node := by
  obtain ⟨d, hd, hshows⟩ := exists_ok_of_any (p := fun d => d.assessment.ambiguities.any fun a =>
      (Document.nodesIn d.document).all fun n => n.name.text? != a.node.text?)
    (by decide +kernel : ((make .standard .identity true firstIdentifiers
      (Input.ofValue (.object blankDraft))).toOption.any _) = true)
  refine ⟨d, hd, fun hall => ?_⟩
  obtain ⟨a, ha, hother⟩ := List.any_eq_true.1 hshows
  obtain ⟨n, hn, hname⟩ := hall a ha
  have hdiffer := List.all_eq_true.1 hother n hn
  rw [hname, bne_self_eq_false] at hdiffer
  cases hdiffer

end Delivery

end WorkflowGraph
