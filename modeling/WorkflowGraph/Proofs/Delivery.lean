import WorkflowGraph.Delivery
import WorkflowGraph.Proofs.Draft.Build
import WorkflowGraph.Proofs.PostProcessor
import WorkflowGraph.Proofs.Repair.Built
import WorkflowGraph.Proofs.Synthesis.Build
/-
The assessment of a document that is handed over. Its report is made before the post-processor runs, and is not made
anew when a repair counts no fix. It is about the document all the same: whatever the input was, the document before
the repair was built, and neither a repair without a fix nor a post-processor that has a name changes what a check
finds in such a document.

- `construct_wellBuilt`: the document before the repair.
- `settle_report`: the report on the document after the repair.
- `make_report`: the report on the document that is handed over.
-/
namespace WorkflowGraph

namespace Delivery

/-- whatever the input is, its document was built from nodes and connections -/
theorem construct_wellBuilt {cfg : BuildConfig} {sources : Identifiers} {input : Input} {built : Built}
    {expected : Option (Nat × Nat)} (h : construct cfg sources input = .ok (built, expected)) :
    ∃ nodes c, Document.WellBuilt built.document nodes c := by
  cases input with
  | draft fields =>
    obtain ⟨b, hb, h⟩ := bind_eq_ok.1 h
    cases h
    exact Draft.build_wellBuilt hb
  | prompt text =>
    simp only [construct] at h
    split at h
    · cases h
    · obtain ⟨b, hb, h⟩ := bind_eq_ok.1 h
      cases h
      obtain ⟨nodes, c, hwell⟩ := Synthesis.build_wellBuilt hb
      exact ⟨nodes, c, hwell⟩

/-- the report is one on the document after the repair, also when it was made before -/
theorem settle_report {cfg : BuildConfig} {repairing : Bool} {document : Fields} {nodes : List Node} {c : Connections}
    (hb : Document.WellBuilt document nodes c) {settled : Repaired} {report : Report}
    (h : settle cfg repairing (.object document) = .ok (settled, report)) :
    ∃ document' nodes' c', settled.document = .object document' ∧ Document.WellBuilt document' nodes' c' ∧
      validate cfg (.object document') = .ok report := by
  obtain ⟨first, hfirst, h⟩ := bind_eq_ok.1 h
  split at h
  · cases h
    exact ⟨document, nodes, c, rfl, hb, hfirst⟩
  · obtain ⟨repaired, hrepaired, h⟩ := bind_eq_ok.1 h
    obtain ⟨document', nodes', c', hdocument, hb', halike⟩ := Repair.repair_built hb hrepaired
    split at h
    · -- the report was made before the repair, which has changed nothing that it is about
      rename_i hfixes
      cases h
      exact ⟨document', nodes', c', hdocument, hb', by rw [← Validation.validate_congr (halike hfixes), hfirst]⟩
    · obtain ⟨second, hsecond, h⟩ := bind_eq_ok.1 h
      cases h
      exact ⟨document', nodes', c', hdocument, hb', hdocument ▸ hsecond⟩

/-- **The report describes the document that is handed over**: a check of that document, with the same configuration,
gives the same report. -/
theorem make_report {cfg : BuildConfig} {name : String} {finish : PostProcessor} {repairing : Bool}
    {sources : Identifiers} {input : Input} {d : Delivery} (hfinish : PostProcessor.named name = .ok finish)
    (h : make cfg finish repairing sources input = .ok d) : validate cfg d.document = .ok d.assessment.report := by
  obtain ⟨⟨built, expected⟩, hbuilt, h⟩ := bind_eq_ok.1 h
  obtain ⟨⟨settled, report⟩, hsettled, h⟩ := bind_eq_ok.1 h
  obtain ⟨needed, -, h⟩ := bind_eq_ok.1 h
  obtain ⟨finished, hfinished, h⟩ := bind_eq_ok.1 h
  cases h
  obtain ⟨nodes, c, hwell⟩ := construct_wellBuilt hbuilt
  obtain ⟨document, nodes', c', hdocument, hwell', hreport⟩ := settle_report hwell hsettled
  rw [hdocument] at hfinished
  exact (PostProcessor.validate_of_named hfinish hwell' hfinished cfg).trans hreport

/-- a draft of one node with code beside its parameters -/
def codedDraft : Fields := [
  (.text "nodes", .list [.object [
    (.text "name", .text "Compute"), (.text "type", .text "n8n-nodes-base.function"),
    (.text "functionCode", .text "return items;")]])]

def firstIdentifiers : Identifiers := ⟨fun i => i, 0, "0123456789abcdef", Double.ofNat 1, 0⟩

theorem make_report_codedDraft :
    PostProcessor.named "relocate_code_fields" = .ok PostProcessor.relocateCode ∧
      ∃ d, make .standard PostProcessor.relocateCode true firstIdentifiers (.draft codedDraft) = .ok d ∧
        validate .standard d.document = .ok d.assessment.report := by
  have hfinish : PostProcessor.named "relocate_code_fields" = .ok PostProcessor.relocateCode := rfl
  obtain ⟨d, hd, -⟩ := exists_ok_of_any (p := fun d => d.assessment.repairs == 0)
    (by decide +kernel : ((make .standard PostProcessor.relocateCode true firstIdentifiers
      (.draft codedDraft)).toOption.any _) = true)
  exact ⟨hfinish, d, hd, make_report hfinish hd⟩

end Delivery

end WorkflowGraph
