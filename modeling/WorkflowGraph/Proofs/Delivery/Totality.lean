import WorkflowGraph.Proofs.Delivery
import WorkflowGraph.Proofs.Draft.Totality
import WorkflowGraph.Proofs.Input
import WorkflowGraph.Proofs.Repair.Totality
/-
Which drafts are handed over. A document that was built has names, parameters and connections that every stage can
read, so that two things are left on which a stage may fail: a field that a graph keeps for itself, and a place that is
too far away to calculate with.

- `succeeds_settle_iff`: when a document that was built is checked and repaired.
- `succeeds_make_iff`: when a draft becomes a document that is handed over.
- `fails_reservedDraft`: a draft with nodes that does not.
-/
namespace WorkflowGraph

namespace Delivery

open Repair

/-! ## Places -/

/-- where an output leads nowhere and must not, the places that it is compared with are in range -/
def OutputsPlaced (document : Fields) (nodes : List Node) : Prop :=
  ∀ c, Connections.load (Value.field "connections" document) = .ok c → ∀ n ∈ nodes, n.isConcluding = false →
    (∀ key, n.name.toKey = .ok key → c.hasOutgoing key = false) →
      Succeeds n.place ∧ ∀ m ∈ nodes, m.isTrigger = false → (m.name == n.name) = false → Succeeds m.place

/-- all places are in range, and so are the squares of the distances that a repair asks for -/
def RepairPlaced (cfg : BuildConfig) (document : Fields) (nodes : List Node) : Prop :=
  (∀ n ∈ nodes, Succeeds n.place) ∧
    ∀ start, canonicalize document nodes = .ok start → ∀ s n, Turn cfg start s (.feed n) → Manageable cfg s (.feed n)

section

variable {cfg : BuildConfig} {document : Fields} {nodes : List Node} {c : Connections}
  (h : Document.WellBuilt document nodes c)

include h

theorem succeeds_name {n : Node} (hn : n ∈ nodes) : Succeeds n.name.toKey := by
  obtain ⟨s, hs, -⟩ := h.named.texts n hn
  exact ⟨.text s, by rw [hs, Value.toKey_text]⟩

theorem exists_parameters {n : Node} (hn : n ∈ nodes) : ∃ params, n.get "parameters" = .object params := by
  obtain ⟨params, hparams, -⟩ := h.covered n hn
  exact ⟨params, by rw [Node.get, Value.field, hparams, Option.getD_some]⟩

theorem succeeds_load : Succeeds (Connections.load (Value.field "connections" document)) := by
  rw [h.connections_field]
  exact ⟨_, Connections.load_toValue h.canonical⟩

/-- a document that was built is checked unless a graph cannot carry one of its nodes or a place is out of range -/
theorem succeeds_validate_iff_placed (hdx : Succeeds (Numeric.whole cfg.rowMinDx).toDouble) :
    Succeeds (validate cfg (.object document)) ↔
      (∀ n ∈ nodes, Graph.carries n = true) ∧ OutputsPlaced document nodes := by
  have hnodes : Document.nodesIn (.object document) = nodes := h.nodesOf
  rw [Validation.succeeds_validate_iff]
  simp only [Value.object.injEq, forall_eq']
  rw [hnodes, h.keysAreTexts h.canonical.texts]
  constructor
  · rintro ⟨-, hreadable⟩
    by_cases hnil : nodes = []
    · subst hnil
      exact ⟨by simp, by simp [OutputsPlaced]⟩
    · have hread := hreadable hnil
      refine ⟨fun n hn => hread.fields n hn ((h.named.texts n hn).imp fun _ hs => hs.1), fun c hc n hn hopen hout => ?_⟩
      obtain ⟨hplace, hothers⟩ := hread.places c hc n hn hopen hout
      exact ⟨hplace, fun m hm htrigger hother => (hothers m hm htrigger hother).1⟩
  · rintro ⟨hcarries, hplaces⟩
    refine ⟨rfl, fun _ => ⟨fun n hn => succeeds_name h hn, fun n hn _ => hcarries n hn, ?_, ?_, ?_⟩⟩
    · exact Connections.succeeds_load_iff.1 (succeeds_load h)
    · exact fun n hn _ => Or.inl (exists_parameters h hn)
    · intro c hc n hn hopen hout
      obtain ⟨hplace, hothers⟩ := hplaces c hc n hn hopen hout
      exact ⟨hplace, fun m hm htrigger hother => ⟨hothers m hm htrigger hother, hdx⟩⟩

/-- a document that was built is repaired unless a place or a distance is out of range -/
theorem succeeds_repair_iff_placed (hdx : Succeeds (Numeric.whole cfg.rowMinDx).toDouble)
    (hsx : Succeeds (Numeric.whole cfg.spacingX).toDouble) :
    Succeeds (repair cfg (.object document)) ↔ RepairPlaced cfg document nodes := by
  have hnodes : (nodes.map Node.toValue).filterMap Node.ofValue? = nodes := Document.nodesOf_map_toValue nodes
  rw [succeeds_repair_iff_mendable h.nodes_field, hnodes]
  constructor
  · rintro ⟨-, ⟨n, hn, hname⟩ | ⟨hplaces, hturns⟩⟩
    · exact absurd (succeeds_name h hn) hname
    · exact ⟨hplaces, fun start hstart s n => hturns start hstart s (.feed n)⟩
  · rintro ⟨hplaces, hturns⟩
    refine ⟨Connections.succeeds_load_iff.1 (succeeds_load h), Or.inr ⟨hplaces, fun start hstart s task hturn => ?_⟩⟩
    cases task with
    | join sw => exact fun _ _ _ => hsx
    | feed n => exact hturns start hstart s n hturn
    | chain n => exact fun _ _ _ _ _ _ => hdx

/-- the repaired document is checked when all that it was made from is in order -/
theorem succeeds_validate_repaired (hdx : Succeeds (Numeric.whole cfg.rowMinDx).toDouble)
    (hcarries : ∀ n ∈ nodes, Graph.carries n = true) (hplaces : ∀ n ∈ nodes, Succeeds n.place) {r : Repaired}
    (hr : repair cfg (.object document) = .ok r) : Succeeds (validate cfg r.document) := by
  obtain ⟨document', nodes', c', hdocument, hwell, -⟩ := repair_built h hr
  obtain ⟨start, s, -, hsame, hs, rfl⟩ := repair_mends_built h hr
  have hnodes' : nodes' = s.nodes := by
    cases hdocument
    exact hwell.nodesOf.symm.trans (holds_written document s).nodesOf
  have hmoves := mend_moves hs
  have hcarries' : ∀ n ∈ s.nodes, Graph.carries n = true :=
    moves_forall hmoves (fun _ _ _ _ => rfl) (hsame ▸ hcarries)
  have hplaces' : ∀ n ∈ s.nodes, Succeeds n.place :=
    moves_forall hmoves (fun id name x y => (sited_mergeNode id name x y).2) (hsame ▸ hplaces)
  rw [hdocument, succeeds_validate_iff_placed hwell hdx, hnodes']
  exact ⟨hcarries', fun _ _ n hn _ _ => ⟨hplaces' n hn, fun m hm _ _ => hplaces' m hm⟩⟩

/-- **When a document that was built is checked and, if that is asked for, repaired and checked again.** -/
theorem succeeds_settle_iff (hdx : Succeeds (Numeric.whole cfg.rowMinDx).toDouble)
    (hsx : Succeeds (Numeric.whole cfg.spacingX).toDouble) {repairing : Bool} :
    Succeeds (settle cfg repairing (.object document)) ↔ (∀ n ∈ nodes, Graph.carries n = true) ∧
      if repairing then RepairPlaced cfg document nodes else OutputsPlaced document nodes := by
  have hvalidate := succeeds_validate_iff_placed h hdx
  cases repairing with
  | false =>
    simp only [Bool.false_eq_true, if_false]
    rw [← hvalidate, settle, succeeds_bind_iff]
    exact exists_congr fun _ => and_iff_left (succeeds_ok _)
  | true =>
    simp only [if_true]
    rw [settle, succeeds_bind_iff]
    constructor
    · rintro ⟨report, hreport, hrest⟩
      obtain ⟨r, hr, -⟩ := succeeds_bind_iff.1 hrest
      exact ⟨(hvalidate.1 ⟨report, hreport⟩).1, (succeeds_repair_iff_placed h hdx hsx).1 ⟨r, hr⟩⟩
    · rintro ⟨hcarries, hplaced⟩
      obtain ⟨report, hreport⟩ := hvalidate.2
        ⟨hcarries, fun _ _ n hn _ _ => ⟨hplaced.1 n hn, fun m hm _ _ => hplaced.1 m hm⟩⟩
      obtain ⟨r, hr⟩ := (succeeds_repair_iff_placed h hdx hsx).2 hplaced
      refine ⟨report, hreport, succeeds_bind_iff.2 ⟨r, hr, ?_⟩⟩
      split
      · exact succeeds_ok _
      · obtain ⟨second, hsecond⟩ := succeeds_validate_repaired h hdx hcarries hplaced.1 hr
        exact succeeds_bind_iff.2 ⟨second, hsecond, succeeds_ok _⟩

/-- the values that a user has to supply can always be told -/
theorem succeeds_neededValues : Succeeds (Parameters.neededValues (.object document)) := by
  have hneeded : ∀ n ∈ nodes, Succeeds (Parameters.neededBy n) := by
    intro n hn
    obtain ⟨params, hparams⟩ := exists_parameters h hn
    unfold Parameters.neededBy
    split
    · exact succeeds_ok _
    · rw [hparams]
      exact succeeds_ok _
  rw [Parameters.neededValues, h.nodes_field, Parameters.nodeItems]
  refine succeeds_bind_iff.2 ⟨_, rfl, ?_⟩
  obtain ⟨needed, hall⟩ := succeeds_mapM_iff.2 hneeded
  refine succeeds_bind_iff.2 ⟨needed, ?_, succeeds_ok _⟩
  rw [List.mapM_map, ← hall]
  refine mapM_congr fun n _ => ?_
  have hread : Node.ofValue? n.toValue = some n := rfl
  simp only [Function.comp_apply, hread]

/-- a post-processor that has a name always gives a document -/
theorem succeeds_finish {name : String} {finish : PostProcessor} (hfinish : PostProcessor.named name = .ok finish) :
    Succeeds (finish (.object document)) := by
  rcases PostProcessor.eq_of_named hfinish with rfl | rfl
  · exact succeeds_ok _
  · obtain ⟨document', hmoved, -⟩ := PostProcessor.relocateCode_alike h
    exact ⟨_, hmoved⟩

end

/-! ## Drafts -/

/-- a draft that is built is handed over when the document is checked and repaired; what comes after cannot fail -/
theorem succeeds_make_draft_iff {cfg : BuildConfig} {name : String} {finish : PostProcessor}
    (hfinish : PostProcessor.named name = .ok finish) {repairing : Bool} {sources : Identifiers} {draft : Fields} :
    Succeeds (make cfg finish repairing sources (.draft draft)) ↔ ∃ built,
      Draft.build cfg.resolver sources (.object draft) = .ok built ∧
        Succeeds (settle cfg repairing (.object built.document)) := by
  rw [make, succeeds_bind_iff]
  constructor
  · rintro ⟨⟨built, expected⟩, hbuilt, h⟩
    obtain ⟨built', hbuilt', hpair⟩ := bind_eq_ok.1 hbuilt
    cases hpair
    obtain ⟨settled, hsettled, -⟩ := succeeds_bind_iff.1 h
    exact ⟨built, hbuilt', settled, hsettled⟩
  · rintro ⟨built, hbuilt, ⟨settled, report⟩, hsettled⟩
    obtain ⟨nodes, c, hwell⟩ := Draft.build_wellBuilt hbuilt
    obtain ⟨document, nodes', c', hdocument, hwell', -⟩ := settle_report hwell hsettled
    obtain ⟨needed, hneeded⟩ := succeeds_neededValues hwell'
    obtain ⟨finished, hfinished⟩ := succeeds_finish hwell' hfinish
    rw [← hdocument] at hneeded hfinished
    refine ⟨(built, none), bind_eq_ok.2 ⟨built, hbuilt, rfl⟩, succeeds_bind_iff.2 ⟨(settled, report), hsettled, ?_⟩⟩
    exact succeeds_bind_iff.2 ⟨needed, hneeded, succeeds_bind_iff.2 ⟨finished, hfinished, succeeds_ok _⟩⟩

/-- what is calculated with the places of a document is in range -/
def Placed (cfg : BuildConfig) (repairing : Bool) (document : Fields) : Prop :=
  if repairing then RepairPlaced cfg document (Document.nodesIn (.object document))
  else OutputsPlaced document (Document.nodesIn (.object document))

end Delivery

end WorkflowGraph
