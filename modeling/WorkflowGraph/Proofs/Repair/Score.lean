import WorkflowGraph.Proofs.Repair.Repetition
import WorkflowGraph.Proofs.Repair.Shape
import WorkflowGraph.Proofs.Validation.Counts
/-
The score of a repaired document. Dropping the edges into triggers can empty a port of a switch, and an empty port is an
error that a repair never mends. Against this stands one error less for each trigger that edges led to. Nothing else
costs points, except that an edge from a name with a line end breaks the shape: no other check finds more after a repair
than before.

- `Refilled`: what a repair does to the number of main ports.
- `portFaults_le`: a switch has more faults only for ports that led to triggers alone.
- `repair_score`: the score before and after.
- `repair_lowers_score`: a document that loses points.
-/
namespace WorkflowGraph

namespace Document

/-- a port has edges, and all of them lead to some names -/
def isSpent (names : List String) (p : Port) : Bool := !p.isEmpty && p.all fun e => names.contains e.node

/-- how many main ports of its switches a document spends on triggers alone -/
def spentPorts : Value → Nat
  | .object fields =>
    let nodes := nodesOf (Value.field "nodes" fields)
    match Connections.load (Value.field "connections" fields) with
    | .ok c =>
      (nodes.map fun n =>
        if n.isSwitch then (c.ports (.text n.name.toText) mainType).countP (isSpent (Repair.triggerNames nodes))
        else 0).sum
    | .error _ => 0
  | _ => 0

/-- one if a name has a line end -/
def lineEnds (document : Value) : Nat :=
  if (nodesIn document).all fun n => n.name.text?.all fun name => decide (OneLine name) then 0 else 1

/-- without it every name is on one line -/
theorem oneLine_of_lineEnds {document : Value} (h : lineEnds document = 0) :
    ∀ n ∈ nodesIn document, ∀ name, n.name = .text name → OneLine name := by
  intro n hn name hname
  by_cases hall : ((nodesIn document).all fun n => n.name.text?.all fun name => decide (OneLine name)) = true
  · have hnode := List.all_eq_true.1 hall n hn
    rw [hname] at hnode
    exact of_decide_eq_true hnode
  · rw [lineEnds, if_neg hall] at h
    cases h

end Document

namespace Repair

/-! ## Ports -/

/-- a source has as many main ports as before, or its first one, which is not empty -/
def Refilled (c d : Connections) : Prop :=
  ∀ source, (d.ports source mainType).length = (c.ports source mainType).length ∨
    c.ports source mainType = [] ∧ ∃ p, d.ports source mainType = [p] ∧ p ≠ []

theorem Refilled.connect {c d : Connections} (h : Refilled c d) (source : Key) (target : String) (index : Nat) :
    Refilled c (d.connect source target index) := by
  intro source'
  unfold Connections.connect
  rw [Connections.ports_addEdge]
  split
  · rename_i hsame
    rw [Connections.ports_congr d hsame.1]
    have hinsert : ∀ p, Connections.insertEdge (.plain target mainType index) p ≠ [] := fun p =>
      List.ne_nil_of_mem ((Connections.mem_insertEdge _ _ _).2 (Or.inl rfl))
    cases hports : d.ports source' mainType with
    | nil =>
      have hnew : (Connections.pad 1 []).modify 0 (Connections.insertEdge (.plain target mainType index)) =
          [Connections.insertEdge (.plain target mainType index) []] := rfl
      rcases h source' with hlength | ⟨-, p, hp, -⟩
      · rw [hports] at hlength
        exact Or.inr ⟨List.length_eq_zero_iff.1 hlength.symm, _, hnew, hinsert _⟩
      · rw [hports] at hp
        cases hp
    | cons p rest =>
      have hpad : Connections.pad 1 (p :: rest) = p :: rest := by simp [Connections.pad]
      rw [hpad, List.modify_zero_cons]
      rcases h source' with hlength | ⟨hnone, q, hq, -⟩
      · rw [hports] at hlength
        exact Or.inl hlength
      · rw [hports] at hq
        cases hq
        exact Or.inr ⟨hnone, _, rfl, hinsert _⟩
  · exact h source'

theorem refilled_joinEnds {c d : Connections} (h : Refilled c d) (merge : String) (i : Nat) (ends : List String) :
    Refilled c (joinEnds d merge i ends) := by
  induction ends generalizing d i with
  | nil => exact h
  | cons e ends ih => exact ih (h.connect _ _ _) _

theorem refilled_of_moves {c : Connections} {s t : State} (h : Relation.ReflTransGen Move s t)
    (hs : Refilled c s.connections) : Refilled c t.connections := by
  induction h with
  | refl => exact hs
  | tail _ hmove ih =>
    cases hmove with
    | noted rule detail hrule => exact ih
    | merged name x y ends detail hnew hname hends hknown => exact refilled_joinEnds ih name 0 ends
    | connected source target key rule detail hsource hkey htarget hopen hrule => exact ih.connect _ _ _

/-- a port that lost edges is empty only if it was, or if it lost all it had -/
theorem countP_isEmpty_le {kept : Edge → Bool} {ports ports' : List Port} (hlength : ports'.length = ports.length)
    (h : ∀ i : Nat, ∃ added, (ports'[i]?).getD [] = ((ports[i]?).getD []).filter kept ++ added) :
    ports'.countP List.isEmpty ≤
      ports.countP List.isEmpty + ports.countP fun p => !p.isEmpty && p.all fun e => !kept e := by
  induction ports generalizing ports' with
  | nil =>
    rw [List.length_eq_zero_iff.1 hlength]
    exact Nat.zero_le _
  | cons p ports ih =>
    obtain ⟨p', ports', rfl⟩ := List.exists_cons_of_length_eq_add_one hlength
    have hrest := ih (Nat.succ.inj hlength) fun i => h (i + 1)
    obtain ⟨added, hfirst⟩ := h 0
    have hfirst : p' = p.filter kept ++ added := hfirst
    have hlost : p' = [] → p = [] ∨ ∀ e ∈ p, kept e = false := by
      intro hempty
      rw [hempty] at hfirst
      have hnone := (List.append_eq_nil_iff.1 hfirst.symm).1
      exact Or.inr fun e he => by simpa using List.filter_eq_nil_iff.1 hnone e he
    rw [List.countP_cons, List.countP_cons, List.countP_cons]
    by_cases hempty : p' = []
    · by_cases hp : p = []
      · simp only [hempty, hp, List.isEmpty_nil, if_true]
        omega
      · have hall : (p.all fun e => !kept e) = true := by
          rw [List.all_eq_true]
          intro e he
          simp [(hlost hempty).resolve_left hp e he]
        simp only [hempty, hall, List.isEmpty_nil, if_true, List.isEmpty_iff, hp, if_false]
        simp only [Bool.and_true, Bool.not_eq_true', List.isEmpty_eq_false_iff, ne_eq, hp, not_false_eq_true, if_true]
        omega
    · have hnot : p'.isEmpty = false := by simpa using hempty
      rw [hnot]
      simp only [Bool.false_eq_true, if_false]
      omega

/-- **A switch has more faults only for ports that lost all their edges.** -/
theorem portFaults_le {kept : Edge → Bool} {c d : Connections} (hrefilled : Refilled c d) (hextends : c.Extends kept d)
    (n : Node) (source : Key) :
    Validation.portFaults n (d.ports source mainType) ≤ Validation.portFaults n (c.ports source mainType) +
      if n.isSwitch then (c.ports source mainType).countP fun p => !p.isEmpty && p.all fun e => !kept e else 0 := by
  unfold Validation.portFaults
  cases n.isSwitch with
  | false => exact Nat.zero_le _
  | true =>
    cases Validation.declaredBranches n with
    | error fault => exact Nat.zero_le _
    | ok declared =>
      simp only [if_true]
      rcases hrefilled source with hlength | ⟨hnone, p, hone, hp⟩
      · have hkept : ∀ i, ∃ added, d.portAt source mainType i = (c.portAt source mainType i).filter kept ++ added := by
          intro i
          obtain ⟨added, hports, -⟩ := hextends.ports source mainType i
          exact ⟨added, hports⟩
        have hempty := countP_isEmpty_le hlength hkept
        rw [hlength]
        omega
      · have hfilled : p.isEmpty = false := by simpa using hp
        -- without any port the number was wrong before, unless no rule is declared
        have hwrong : declared ≠ 0 ∧ 1 ≠ declared → declared ≠ 0 ∧ 0 ≠ declared := fun h => ⟨h.1, h.1.symm⟩
        rw [hone, hnone]
        simp only [List.countP_cons, List.countP_nil, hfilled, List.length_singleton, List.length_nil]
        split_ifs <;> simp_all

/-! ## Counts -/

theorem isSwitch_of_merge {n : Node} (h : n.get "type" = .text "n8n-nodes-base.merge") : n.isSwitch = false := by
  unfold Node.isSwitch Node.shortType Node.tag
  rw [h]
  decide +kernel

section

variable {cfg : BuildConfig} {fields : Fields} {items : List Value} {c : Connections} {start s : State}
  {before after : Report} (hn : Value.field "nodes" fields = .list items)
  (hw : WellNamed (items.filterMap Node.ofValue?))
  (hload : Connections.load (Value.field "connections" fields) = .ok c)
  (hstart : canonicalize fields (items.filterMap Node.ofValue?) = .ok start) (hs : mend cfg start = .ok s)
  (hmended : Mended (items.filterMap Node.ofValue?) c s) (hbefore : validate cfg (.object fields) = .ok before)
  (hafter : validate cfg (.object (written fields s)) = .ok after)

include hn hw hload hmended hbefore hafter in
/-- a structural category has no more issues than before -/
theorem count_structural_le {k : IssueCategory} (hk : k ∈ structural) : after.count k ≤ before.count k := by
  have hnamed : WellNamed (Document.nodesOf (Value.field "nodes" (written fields s))) := by
    rw [(holds_written fields s).nodesOf]
    exact hmended.named
  have hsub : after.about k ⊆ before.about k := by
    intro v hv
    obtain ⟨i, hi, rfl, rfl⟩ := Report.mem_about.1 hv
    exact Report.mem_about.2 (structural_of_written hn hw hmended hload hbefore hafter i hi hk)
  have hle := (List.subperm_of_subset (Validation.nodup_about hafter hnamed hk) hsub).length_le
  rwa [Report.length_about, Report.length_about] at hle

include hn hw hstart hs hbefore hafter in
/-- the shape is no worse than before, except for a name with a line end -/
theorem count_schema_le :
    after.count .schema ≤ before.count .schema + (Document.lineEnds (.object fields) - before.count .schema) := by
  have hone := Validation.count_schema_le_one hafter
  by_cases hends : Document.lineEnds (.object fields) = 0
  · rcases Nat.eq_zero_or_pos (before.count .schema) with hnone | hsome
    · have hlines := Document.oneLine_of_lineEnds hends
      have hin : Document.nodesIn (.object fields) = items.filterMap Node.ofValue? := by
        show Document.nodesOf (Value.field "nodes" fields) = _
        rw [hn]
        rfl
      have hshape := (Validation.count_schema_eq_zero_iff hbefore).1 hnone
      have hkeys : Schema.keysAreTexts fields = true := by
        simp only [validate] at hbefore
        split at hbefore
        · cases hbefore
        · rename_i hkeys
          simpa using hkeys
      have hafter := (Validation.count_schema_eq_zero_iff hafter).2
        (shape_written hn hw hstart hs (hin ▸ hlines) hkeys hshape)
      omega
    · omega
  · omega

include hn hw hload hstart hs hmended hbefore hafter in
/-- switches have more issues only for the ports that were spent on triggers -/
theorem count_switch_le :
    after.count .switch ≤ before.count .switch + Document.spentPorts (.object fields) := by
  obtain ⟨c', hload', hnodes, hconnections, -⟩ := canonicalize_connections hstart
  cases hload.symm.trans hload'
  obtain ⟨-, hwritten, hread⟩ := read_written fields hmended
  obtain ⟨added, hall, hmerges⟩ := moves_merges (mend_moves hs)
  have hnodesOf : Document.nodesOf (Value.field "nodes" fields) = items.filterMap Node.ofValue? := by
    rw [hn]
    rfl
  have hextends : c.Extends (sparesTriggers (items.filterMap Node.ofValue?)) s.connections := by
    refine moves_extends (mend_moves hs) ?_
    rw [hconnections]
    exact Connections.extends_filter _ _
  have hrefilled : Refilled c s.connections := by
    refine refilled_of_moves (mend_moves hs) fun source => Or.inl ?_
    rw [hconnections, Connections.ports_mapPorts, List.length_map]
  have hadded : (added.map fun n => Validation.portFaults n (s.connections.ports (.text n.name.toText) mainType)).sum =
      0 := by
    refine List.sum_eq_zero fun k hk => ?_
    obtain ⟨n, hmem, rfl⟩ := List.mem_map.1 hk
    exact Validation.portFaults_of_not_switch (isSwitch_of_merge (hmerges.type n hmem)) _
  have hspent : ∀ p : Port, (!p.isEmpty && p.all fun e => !sparesTriggers (items.filterMap Node.ofValue?) e) =
      Document.isSpent (triggerNames (items.filterMap Node.ofValue?)) p := by
    intro p
    simp only [Document.isSpent, sparesTriggers, Bool.not_not]
  rw [Validation.count_switch hafter hwritten hread hmended.named,
    Validation.count_switch hbefore hnodesOf hload hw, hall, hnodes, List.map_append, List.sum_append, hadded,
    Nat.add_zero, Document.spentPorts, hload, hnodesOf, ← List.sum_map_add]
  refine List.sum_le_sum fun n _ => ?_
  have hfaults := portFaults_le hrefilled hextends n (.text n.name.toText)
  simpa only [hspent] using hfaults

end

/-! ## The score -/

/-- a score does not fall when no count grows, and falls by an error at most for each spent port -/
theorem scoreOf_le {errors warnings errors' warnings' lost : Nat} (herrors : errors' ≤ errors + lost)
    (hwarnings : warnings' ≤ warnings) : scoreOf errors warnings ≤ scoreOf errors' warnings' + 20 * lost := by
  unfold scoreOf
  omega

/-- **A repair costs points only for ports of switches that led to triggers alone**, an error each, as far as these
outnumber the triggers that edges led to. One error more may come of names with a line end, which are no names for
sources, unless the shape was wrong before. -/
theorem repair_score {cfg : BuildConfig} {document : Value} {r : Repaired} {before after : Report}
    (hw : WellNamed (Document.nodesIn document)) (h : repair cfg document = .ok r)
    (hbefore : validate cfg document = .ok before) (hafter : validate cfg r.document = .ok after) :
    before.score ≤ after.score + 20 * ((Document.spentPorts document +
      (Document.lineEnds document - before.count .schema) - before.count .triggerIncoming : ℕ) : ℤ) := by
  by_cases hn : ∀ fields items, document = .object fields → Value.field "nodes" fields ≠ .list items
  · -- a document without a list of nodes is handed back
    rw [(repair_skips h hn).1] at hafter
    cases hbefore.symm.trans hafter
    exact le_add_of_nonneg_right (by positivity)
  · push Not at hn
    obtain ⟨fields, items, rfl, hitems⟩ := hn
    have hnodesOf : Document.nodesIn (.object fields) = items.filterMap Node.ofValue? := by
      show Document.nodesOf (Value.field "nodes" fields) = _
      rw [hitems]
      rfl
    rw [hnodesOf] at hw
    obtain ⟨start, s, hstart, hs, rfl⟩ := repair_mends h hitems fun n hn => (hw.texts n hn).imp fun _ hs => hs.1
    obtain ⟨c, hload, hmended⟩ := mended_of_mend hstart hs hw
    have hstructural : ∀ k ∈ structural, after.count k ≤ before.count k :=
      fun k hk => count_structural_le hitems hw hload hmended hbefore hafter hk
    have hschema := count_schema_le hitems hw hstart hs hbefore hafter
    have hswitch := count_switch_le hitems hw hload hstart hs hmended hbefore hafter
    have htriggers : after.count .triggerIncoming = 0 := by
      refine List.length_eq_zero_iff.2 (List.filter_eq_nil_iff.2 fun i hi => ?_)
      simpa using fun hcategory => (concern_of_written hmended hw hafter hi (by simp [hcategory])
        (by simp [hcategory]) (by simp [hcategory])).1 hcategory
    have houtputs : after.count .noOutgoing = 0 := by
      refine List.length_eq_zero_iff.2 (List.filter_eq_nil_iff.2 fun i hi => ?_)
      simpa using led_of_written hmended hs hafter i hi
    have hempty := hstructural .empty (by decide)
    have htrigger := hstructural .trigger (by decide)
    have hduplicate := hstructural .names (by decide)
    have hdangling := hstructural .dangling (by decide)
    have hdisconnected := hstructural .disconnected (by decide)
    have hparameters := hstructural .parameters (by decide)
    refine scoreOf_le ?_ ?_
    · rw [Validation.length_errors (Validation.severity_of_issue hbefore),
        Validation.length_errors (Validation.severity_of_issue hafter)]
      omega
    · rw [Validation.length_warnings (Validation.severity_of_issue hbefore),
        Validation.length_warnings (Validation.severity_of_issue hafter)]
      omega

/-! ## A document that loses points -/

/-- a switch that leads back to the start by both of its ports -/
def spentNodes : List Node := [
  batchesNode "1" "Start" "manualTrigger" 0 0 [],
  batchesNode "2" "Route" "switch" 200 0
    [(.text "rules", .object [(.text "rules", .list [.object [], .object []])])]]

def spentConnections : Connections :=
  ((Connections.empty.connect (.text "Start") "Route" 0).connect (.text "Route") "Start" 0).addEdge
    (.text "Route") mainType 1 (.plain "Start" mainType 0)

def spentDocument : Fields := [
  (.text "name", .text "Back"), (.text "nodes", .list (spentNodes.map Node.toValue)),
  (.text "connections", spentConnections.toValue)]

theorem wellNamed_spentDocument : WellNamed (Document.nodesIn (.object spentDocument)) := by
  have hnodes : Document.nodesIn (.object spentDocument) = spentNodes := Document.nodesOf_map_toValue spentNodes
  have hnames : spentNodes.map Node.name = ["Start", "Route"].map Value.text := rfl
  rw [hnodes]
  exact .of_names hnames (by decide +kernel) (by decide)

/-- the reports on that document before and after its repair -/
theorem repairs_spentDocument :
    ∃ r before after, repair .standard (.object spentDocument) = .ok r ∧
      validate .standard (.object spentDocument) = .ok before ∧ validate .standard r.document = .ok after ∧
      before.score = 80 ∧ after.score = 60 := by
  obtain ⟨before, hbefore, hhigh⟩ := exists_ok_of_any (p := fun before : Report => decide (before.score = 80))
    (by decide +kernel : ((validate .standard (.object spentDocument)).toOption.any _) = true)
  have hruns : ((repair .standard (.object spentDocument)).toOption.any fun r =>
      (validate .standard r.document).toOption.any fun after : Report => decide (after.score = 60)) = true := by
    simp only [repair, mend, connectAll_eq]
    decide +kernel
  obtain ⟨r, hr, hvalidated⟩ := exists_ok_of_any hruns
  obtain ⟨after, hafter, hlow⟩ := exists_ok_of_any hvalidated
  exact ⟨r, before, after, hr, hbefore, hafter, of_decide_eq_true hhigh, of_decide_eq_true hlow⟩

/-- **A repair can cost points**: dropping the edges into the trigger leaves two ports of the switch empty. -/
theorem repair_lowers_score :
    WellNamed (Document.nodesIn (.object spentDocument)) ∧
      ∃ r before after, repair .standard (.object spentDocument) = .ok r ∧
        validate .standard (.object spentDocument) = .ok before ∧ validate .standard r.document = .ok after ∧
        after.score < before.score := by
  obtain ⟨r, before, after, hr, hbefore, hafter, hhigh, hlow⟩ := repairs_spentDocument
  refine ⟨wellNamed_spentDocument, r, before, after, hr, hbefore, hafter, ?_⟩
  rw [hhigh, hlow]
  decide

/-- the bound is the loss in that document, where two ports are spent on one trigger -/
theorem repair_score_spentDocument :
    WellNamed (Document.nodesIn (.object spentDocument)) ∧
      ∃ r before after, repair .standard (.object spentDocument) = .ok r ∧
        validate .standard (.object spentDocument) = .ok before ∧ validate .standard r.document = .ok after ∧
        before.score ≤ after.score + 20 * ((Document.spentPorts (.object spentDocument) +
          (Document.lineEnds (.object spentDocument) - before.count .schema) -
            before.count .triggerIncoming : ℕ) : ℤ) := by
  obtain ⟨r, before, after, hr, hbefore, hafter, -⟩ := repairs_spentDocument
  exact ⟨wellNamed_spentDocument, r, before, after, hr, hbefore, hafter,
    repair_score wellNamed_spentDocument hr hbefore hafter⟩

end Repair

end WorkflowGraph
