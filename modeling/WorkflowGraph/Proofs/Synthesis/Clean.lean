import WorkflowGraph.Proofs.Synthesis.Order
import WorkflowGraph.Proofs.Synthesis.Switches
import WorkflowGraph.Proofs.Validation.Concerns
/-
Checking the document of a plan. Whatever a plan asks for, its document has a trigger, names of its own for its nodes,
no edge from or to an unknown node or into a trigger, and an edge into everything else. The only thing that a check can
find at a switch is a port that nothing could be routed to.

- `concern_of_ordered`: of all that can be wrong with a structure, only parameters can be wrong with a layout.
- `build_tidy`: the report on the document of a plan.
-/
namespace WorkflowGraph

namespace Synthesis

open Canvas

variable {cfg : BuildConfig} {c : Canvas}

/-- the ends of an edge are known -/
theorem known_of_joined (hordered : Ordered cfg c) {a b : String} (h : c.Joined a b) :
    Known (c.nodes.map PlacedNode.toNode) a ∧ Known (c.nodes.map PlacedNode.toNode) b := by
  obtain ⟨n, hn, m, hm, rfl, rfl, -⟩ := hordered.edges a b h
  exact ⟨⟨_, List.mem_map_of_mem hn, n.name_toNode⟩, ⟨_, List.mem_map_of_mem hm, m.name_toNode⟩⟩

/-- only parameters can be wrong with nodes that are laid out in order -/
theorem concern_of_ordered (hordered : Ordered cfg c) (hsound : Sound c)
    (htype : Catalog.isTriggerType cfg.defaultNodeType = false) (hstart : ∃ t ∈ c.nodes, t.origin = .trigger)
    {k : IssueCategory} {v : Value}
    (h : Validation.Concern (c.nodes.map PlacedNode.toNode) c.connections k v) : k = .parameters := by
  obtain ⟨t, ht, horigin⟩ := hstart
  cases h with
  | empty hnone =>
    rw [List.map_eq_nil_iff.1 hnone] at ht
    cases ht
  | trigger hne hnone =>
    have hnot := hnone _ (List.mem_map_of_mem ht)
    rw [t.isTrigger_toNode, hordered.starts t ht horigin] at hnot
    cases hnot
  | dangling hne hjoins hends hunknown =>
    obtain ⟨hsource, htarget⟩ := known_of_joined hordered hjoins
    rcases hends with rfl | rfl
    · exact absurd hsource hunknown
    · exact absurd htarget hunknown
  | incoming hmem htrigger hname hreached =>
    obtain ⟨n, hn, rfl⟩ := List.mem_map.1 hmem
    obtain ⟨-, a, -, hjoins⟩ := hreached
    obtain ⟨-, -, m, hm, -, rfl, -, -, hplain⟩ := hordered.edges _ _ hjoins
    rw [n.name_toNode] at hname
    cases hsound.eq_of_name hn hm (Value.text.inj hname)
    rw [n.isTrigger_toNode, hplain htype] at htrigger
    cases htrigger
  | disconnected hmem htrigger hname hreached =>
    obtain ⟨n, hn, rfl⟩ := List.mem_map.1 hmem
    rw [n.name_toNode] at hname
    cases hname
    rw [n.isTrigger_toNode] at htrigger
    rcases hordered.entered n hn with hstarting | ⟨a, hjoined⟩
    · rw [htrigger] at hstarting
      cases hstarting
    · obtain ⟨hsource, htarget⟩ := known_of_joined hordered hjoined
      exact absurd ⟨htarget, a, hsource, hjoined⟩ hreached
  | parameters hmem hmissing => rfl

/-! ## The report -/

/-- nothing could be routed from a node: it was opened for a requirement that no other one follows as a route -/
def Unrouted (p : Plan) (before : List PlacedNode) (n : PlacedNode) : Prop :=
  ∃ q rest, n.origin = .step q ∧ q.isSwitch = true ∧ requirements before n.branch ++ q :: rest = p.asked n.branch ∧
    routesOf (switchLabels q.text) rest = []

/-- a report finds nothing wrong with how a canvas is put together, other than empty ports of switches from which nothing
could be routed -/
structure Tidy (p : Plan) (c : Canvas) (report : Report) : Prop where
  absent : ∀ i ∈ report.issues,
    i.category ∉ [IssueCategory.empty, .trigger, .names, .dangling, .triggerIncoming, .disconnected]
  switches : ∀ i ∈ report.issues, i.category = .switch → ∃ before n after, ∃ k : Nat, c.nodes = before ++ n :: after ∧
    Unrouted p before n ∧ (c.portsOf n.name)[k]? = some [] ∧
    i = .error .switch ("Switch '" ++ n.name ++ "' " ++ "output " ++ toString k ++ " is empty") (.text n.name)
  settled : EachAfter (fun before n => n.toNode.isSwitch = true →
    Validation.declaredBranches n.toNode = .ok (declaredRules n.parameters) ∧ Settled p c before n) c.nodes

/-- a settled switch has a port for each rule that it declares -/
theorem count_of_settled {p : Plan} {before : List PlacedNode} {n : PlacedNode} (h : Settled p c before n)
    (hdeclares : declaredRules n.parameters ≠ 0) : (c.portsOf n.name).length = declaredRules n.parameters := by
  cases h with
  | plain hrules hwired => exact absurd hrules hdeclares
  | routed q rest horigin hq hasked hrules hcount hwired => exact hcount

/-- an empty port of a settled switch is one that nothing could be routed to -/
theorem unrouted_of_settled {p : Plan} {before : List PlacedNode} {n : PlacedNode} (h : Settled p c before n) {k : Nat}
    (hempty : (c.portsOf n.name)[k]? = some []) : Unrouted p before n := by
  cases h with
  | plain hrules hwired => exact absurd hempty (hwired.not_empty k)
  | routed q rest horigin hq hasked hrules hcount hwired =>
    rcases hwired with hnone | hwired
    · exact ⟨q, rest, horigin, hq, hasked, hnone⟩
    · exact absurd hempty (hwired.not_empty k)

/-- **The document of a plan is put together properly**: a check finds a trigger, names of their own, no edge from or to
an unknown node or into a trigger, and an edge into everything else; and at switches it only finds ports that nothing
could be routed to. -/
theorem build_tidy {cfg cfg' : BuildConfig} {sources : Identifiers} {p : Plan} {built : Built} {report : Report}
    (hbranches : p.branches ≠ []) (htype : Catalog.isTriggerType cfg.defaultNodeType = false)
    (hbuild : build cfg sources p = .ok built) (h : validate cfg' (.object built.document) = .ok report) :
    ∃ sources', Shows built.document (lay cfg sources' p) ∧ Tidy p (lay cfg sources' p) report := by
  obtain ⟨sources', hshows⟩ := build_shows hbuild
  refine ⟨sources', hshows, ?_⟩
  have hordered := ordered_lay cfg sources' p
  have hsound := sound_lay cfg sources' p
  have hsettled := (switches_lay cfg sources' p).settled
  obtain ⟨t, ht, -, horigin⟩ := exists_trigger_lay cfg sources' (List.length_pos_iff.2 hbranches)
  generalize lay cfg sources' p = c at hshows hordered hsound hsettled ht
  have hnodes := hshows.nodesOf
  refine ⟨fun i hi hmem => ?_, fun i hi hcategory => ?_, fun before n after hsplit hswitch => ?_⟩
  · have hlist : Document.nodes built.document = .ok (Document.nodesOf (Value.field "nodes" built.document)) := by
      rw [hnodes, hshows.nodes_eq]
    have hnamed : WellNamed (Document.nodesOf (Value.field "nodes" built.document)) := hnodes ▸ hsound.named
    have hconcern := Validation.concern_of_issue h hlist hshows.load hnamed hi (fun heq => by simp [heq] at hmem)
      (fun heq => by simp [heq] at hmem) (fun heq => by simp [heq] at hmem)
    rw [hnodes] at hconcern
    have hparameters := concern_of_ordered hordered hsound htype ⟨t, ht, horigin⟩ hconcern
    simp [hparameters] at hmem
  · obtain ⟨m, hm, key, found, hkey, hfound, hi⟩ := Validation.switch_of_issue h hshows.load hi hcategory
    rw [hnodes] at hm
    obtain ⟨n, hn, hplaced⟩ := List.mem_map.1 hm
    obtain rfl : key = .text n.name := by
      rw [← hplaced, n.name_toNode] at hkey
      exact (Except.ok.inj hkey).symm
    have hswitch := Validation.isSwitch_of_mem_switchIssues hfound hi
    dsimp only at hswitch
    have hdeclared : Validation.declaredBranches m = .ok (declaredRules n.parameters) :=
      hplaced ▸ n.declaredBranches_toNode
    obtain ⟨before, after, hsplit⟩ := List.append_of_mem hn
    have hn := hsettled before n after hsplit (hplaced ▸ hswitch) List.not_mem_nil
    obtain ⟨k, hempty, hissue⟩ :=
      Validation.empty_of_mem_switchIssues hfound hi hdeclared (count_of_settled hn)
    exact ⟨before, n, after, k, hsplit, unrouted_of_settled hn hempty, hempty, hissue⟩
  · exact ⟨n.declaredBranches_toNode, hsettled before n after hsplit hswitch List.not_mem_nil⟩

def returnsPlan : Plan := ⟨"Returns", [returnsBranch], none, []⟩

theorem build_tidy_returnsPlan : returnsPlan.branches ≠ [] ∧
    Catalog.isTriggerType BuildConfig.standard.defaultNodeType = false ∧
    ∃ built report, build .standard ordersSources returnsPlan = .ok built ∧
      validate .standard (.object built.document) = .ok report ∧
      (∃ i ∈ report.issues, i.category = .switch) ∧
      ∃ sources', Shows built.document (lay .standard sources' returnsPlan) ∧
        Tidy returnsPlan (lay .standard sources' returnsPlan) report := by
  have hbranches : returnsPlan.branches ≠ [] := List.cons_ne_nil _ _
  have htype : Catalog.isTriggerType BuildConfig.standard.defaultNodeType = false := by decide +kernel
  obtain ⟨built, hbuilt, hvalidated⟩ := exists_ok_of_any (by decide +kernel :
    ((build .standard ordersSources returnsPlan).toOption.any fun built =>
      (validate .standard (.object built.document)).toOption.any fun report =>
        report.issues.any fun i => decide (i.category = .switch)) = true)
  obtain ⟨report, hreport, hswitch⟩ := exists_ok_of_any hvalidated
  refine ⟨hbranches, htype, built, report, hbuilt, hreport, ?_, build_tidy hbranches htype hbuilt hreport⟩
  simpa using hswitch

end Synthesis

end WorkflowGraph
