import WorkflowGraph.Proofs.Graph
import WorkflowGraph.Proofs.Value
import WorkflowGraph.Validation
/-
What each check reports. One statement per check says when it reports something and about which node, and
`examined_of_validate` says which checks a report is made of.
-/
namespace WorkflowGraph

namespace Validation

/-- the named nodes are the nodes with their names -/
theorem named_spec {nodes : List Node} {ns : List Named} (h : named nodes = .ok ns) :
    ns.map (·.node) = nodes ∧ ∀ x ∈ ns, x.node.name.toKey = .ok x.key := by
  unfold named at h
  induction nodes generalizing ns with
  | nil => cases h; simp
  | cons n nodes ih =>
    obtain ⟨x, xs, hx, hxs, rfl⟩ := mapM_cons_eq_ok.1 h
    obtain ⟨k, hk, rfl⟩ := map_eq_ok.1 hx
    obtain ⟨hmap, hkeys⟩ := ih hxs
    exact ⟨by simp [hmap], List.forall_mem_cons.2 ⟨hk, hkeys⟩⟩

/-- a key is a text when the name is that text -/
theorem key_eq_text_iff {x : Named} (h : x.node.name.toKey = .ok x.key) {s : String} :
    x.key = .text s ↔ x.node.name = .text s := by
  constructor
  · intro hk
    rw [← Value.ofKey_of_toKey h, hk]
    rfl
  · intro hn
    rw [hn, Value.toKey_text] at h
    exact (Except.ok.inj h).symm

/-- among the keys of named nodes a text is found when it is the name of a node -/
theorem contains_text_iff {ns : List Named} (h : ∀ x ∈ ns, x.node.name.toKey = .ok x.key) {s : String} :
    (ns.map (·.key)).contains (Key.text s) = true ↔ Known (ns.map (·.node)) s := by
  rw [List.contains_iff_exists_mem_beq]
  constructor
  · rintro ⟨k, hk, hb⟩
    obtain ⟨x, hx, rfl⟩ := List.mem_map.1 hk
    exact ⟨x.node, List.mem_map.2 ⟨x, hx, rfl⟩, (key_eq_text_iff (h x hx)).1 (Key.eq_text_of_beq (BEq.symm hb))⟩
  · rintro ⟨n, hn, hs⟩
    obtain ⟨x, hx, rfl⟩ := List.mem_map.1 hn
    exact ⟨x.key, List.mem_map.2 ⟨x, hx, rfl⟩, by rw [(key_eq_text_iff (h x hx)).2 hs]; simp⟩

/-! ## Severity and category -/

theorem of_mem_schemaIssues {document : Fields} {i : Issue} (h : i ∈ schemaIssues document) :
    i.severity = .error ∧ i.category = .schema := by
  unfold schemaIssues at h
  split at h
  · rw [List.mem_singleton.1 h]
    exact ⟨rfl, rfl⟩
  · cases h

theorem of_mem_nameIssues {ns : List Named} {i : Issue} (h : i ∈ nameIssues ns) :
    i.severity = .error ∧ i.category = .names := by
  obtain ⟨⟨k, count⟩, -, hk⟩ := List.mem_filterMap.1 h
  simp only [Option.ite_none_right_eq_some, Option.some.injEq] at hk
  rw [← hk.2]
  exact ⟨rfl, rfl⟩

/-! ## Triggers and names -/

theorem triggerKeys_eq_nil_iff {ns : List Named} :
    triggerKeys ns = [] ↔ ∀ x ∈ ns, x.node.isTrigger = false := by
  simp [triggerKeys, List.filter_eq_nil_iff]

/-- a missing trigger is reported when no node is one -/
theorem mem_triggerIssues {ns : List Named} {i : Issue} :
    i ∈ triggerIssues ns ↔ (∀ x ∈ ns, x.node.isTrigger = false) ∧
      i = .error .trigger "Missing trigger node (workflow has no entry point)" .null := by
  unfold triggerIssues
  rw [← triggerKeys_eq_nil_iff, ← List.isEmpty_iff]
  split
  · rename_i h
    simp [h]
  · rename_i h
    simp [h]

theorem triggerIssues_eq_nil_iff {ns : List Named} :
    triggerIssues ns = [] ↔ ∃ x ∈ ns, x.node.isTrigger = true := by
  rw [List.eq_nil_iff_forall_not_mem]
  constructor
  · intro h
    by_contra hnone
    exact h _ (mem_triggerIssues.2 ⟨by simpa using hnone, rfl⟩)
  · rintro ⟨x, hx, ht⟩ i hi
    have hx' := (mem_triggerIssues.1 hi).1 x hx
    rw [ht] at hx'
    cases hx'

/-- the count of a name is the number of nodes that have it -/
theorem nameCounts_eq (ns : List Named) (k : Key) :
    (Table.get? k (nameCounts ns)).getD 0 = ns.countP fun x => x.key == k := by
  have run : ∀ (ns : List Named) (t : Table Key Nat),
      (Table.get? k (ns.foldl (fun t x => Table.modify x.key (fun c => c.getD 0 + 1) t) t)).getD 0 =
        (Table.get? k t).getD 0 + ns.countP fun x => x.key == k := by
    intro ns
    induction ns with
    | nil => intro t; simp
    | cons x ns ih =>
      intro t
      rw [List.foldl_cons, ih, Table.get?_modify, List.countP_cons]
      by_cases h : (x.key == k) = true
      · rw [if_pos h, if_pos h, Table.get?_congr h]
        simp only [Option.getD_some]
        omega
      · rw [if_neg h, if_neg h]
        omega
  simpa [nameCounts, Table.get?] using run ns []

theorem distinct_nameCounts (ns : List Named) : (nameCounts ns).Distinct := by
  have run : ∀ (ns : List Named) (t : Table Key Nat), t.Distinct →
      (ns.foldl (fun t x => Table.modify x.key (fun c => c.getD 0 + 1) t) t).Distinct := by
    intro ns
    induction ns with
    | nil => exact fun t ht => ht
    | cons x ns ih => exact fun t ht => ih _ (Table.distinct_modify ht)
  exact run ns [] Table.distinct_nil

/-- no name occurs twice exactly when the names are distinct -/
theorem countP_key_le_one_iff {ns : List Named} :
    (∀ k, (ns.countP fun x => x.key == k) ≤ 1) ↔ ns.Pairwise fun a b => (a.key == b.key) = false := by
  induction ns with
  | nil => simp
  | cons x ns ih =>
    rw [List.pairwise_cons, ← ih]
    constructor
    · intro h
      refine ⟨fun y hy => ?_, fun k => ?_⟩
      · by_contra hb
        have hpos : 0 < ns.countP fun z => z.key == y.key := List.countP_pos_iff.2 ⟨y, hy, by simp⟩
        have := h y.key
        rw [List.countP_cons, if_pos (by simpa using hb)] at this
        omega
      · have := h k
        rw [List.countP_cons] at this
        omega
    · rintro ⟨hx, hns⟩ k
      rw [List.countP_cons]
      by_cases hk : (x.key == k) = true
      · have hnone : (ns.countP fun z => z.key == k) = 0 := by
          rw [List.countP_eq_zero]
          intro y hy hb
          exact absurd (BEq.trans hk (BEq.symm hb)) (by simp [hx y hy])
        rw [if_pos hk, hnone]
      · rw [if_neg hk]
        exact hns k

/-- names are distinct exactly when none is reported -/
theorem nameIssues_eq_nil_iff {ns : List Named} :
    nameIssues ns = [] ↔ ns.Pairwise fun a b => (a.key == b.key) = false := by
  rw [← countP_key_le_one_iff]
  unfold nameIssues
  rw [List.filterMap_eq_nil_iff]
  constructor
  · intro h k
    rw [← nameCounts_eq]
    cases hk : Table.get? k (nameCounts ns) with
    | none => simp
    | some count =>
      obtain ⟨k', -, hmem⟩ := Table.exists_mem_of_get? hk
      have := h _ hmem
      simp only [ite_eq_right_iff, reduceCtorEq, imp_false] at this
      simpa using this
  · rintro h ⟨k, count⟩ hmem
    have hget := Table.get?_of_mem (distinct_nameCounts ns) hmem
    have hcount := nameCounts_eq ns k
    rw [hget, Option.getD_some] at hcount
    have := h k
    simp only [ite_eq_right_iff, reduceCtorEq, imp_false]
    omega

/-! ## Edges -/

/-- what is reported about the ends of edges is an end that is no node -/
theorem of_mem_danglingIssues {known reported : List Key} {refs : List (Key × Link)} {i : Issue}
    (h : i ∈ danglingIssues known reported refs) :
    ∃ r ∈ refs, known.contains r.1 = false ∧ ∃ message, i = .error .dangling message (.ofKey r.1) := by
  induction refs generalizing reported with
  | nil => simp [danglingIssues] at h
  | cons r refs ih =>
    unfold danglingIssues at h
    split at h
    · obtain ⟨r', hr', hrest⟩ := ih h
      exact ⟨r', List.mem_cons_of_mem _ hr', hrest⟩
    · rename_i hne
      rw [Bool.or_eq_true, not_or] at hne
      rcases List.mem_cons.1 h with rfl | h
      · exact ⟨r, List.mem_cons_self, by simpa using hne.1, _, rfl⟩
      · obtain ⟨r', hr', hrest⟩ := ih h
        exact ⟨r', List.mem_cons_of_mem _ hr', hrest⟩

/-- an end of an edge that is no node is reported, under the form in which it came first -/
theorem exists_danglingIssue {known reported : List Key} {refs : List (Key × Link)} {r : Key × Link} (hr : r ∈ refs)
    (hk : known.contains r.1 = false) (hrep : reported.contains r.1 = false) :
    ∃ i ∈ danglingIssues known reported refs, i.category = .dangling ∧
      ∃ k, (k == r.1) = true ∧ i.node = .ofKey k := by
  induction refs generalizing reported with
  | nil => simp at hr
  | cons r' refs ih =>
    unfold danglingIssues
    rcases List.mem_cons.1 hr with rfl | hr
    · rw [if_neg (by simp [hk, hrep])]
      exact ⟨_, List.mem_cons_self, rfl, _, by simp, rfl⟩
    · split
      · exact ih hr hrep
      · by_cases hsame : (r'.1 == r.1) = true
        · exact ⟨_, List.mem_cons_self, rfl, _, hsame, rfl⟩
        · have hnext : (r'.1 :: reported).contains r.1 = false := by
            rw [List.contains_cons, hrep, Bool.or_false]
            simpa [BEq.comm] using hsame
          obtain ⟨i, hi, hrest⟩ := ih hr hnext
          exact ⟨i, List.mem_cons_of_mem _ hi, hrest⟩

theorem mem_references {c : Connections} {r : Key × Link} :
    r ∈ references c ↔ r.2 ∈ c.links ∧ (r.1 = r.2.source ∨ r.1 = .text r.2.edge.node) := by
  obtain ⟨k, l⟩ := r
  simp only [references, List.mem_flatMap, List.mem_cons, Prod.mk.injEq, List.not_mem_nil, or_false]
  constructor
  · rintro ⟨l', hl', ⟨rfl, rfl⟩ | ⟨rfl, rfl⟩⟩
    · exact ⟨hl', Or.inl rfl⟩
    · exact ⟨hl', Or.inr rfl⟩
  · rintro ⟨hl, h | h⟩
    · exact ⟨l, hl, Or.inl ⟨h, rfl⟩⟩
    · exact ⟨l, hl, Or.inr ⟨h, rfl⟩⟩

theorem isReached_eq_true_iff {g : Graph} {k : Key} :
    isReached g k = true ↔ ∃ s, k = .text s ∧ g.hasNode s = true ∧ 0 < g.inDegree s := by
  cases k with
  | text s => simp [isReached]
  | _ => simp [isReached]

/-- the triggers that are reported are those that an edge leads to -/
theorem mem_incomingIssues {g : Graph} {triggers : List Key} {i : Issue} :
    i ∈ incomingIssues g triggers ↔ ∃ s, Key.text s ∈ triggers ∧ isReached g (.text s) = true ∧
      i = ⟨.error, .triggerIncoming, "Trigger '" ++ s ++ "' has incoming connections", true, .text s⟩ := by
  simp only [incomingIssues, List.mem_map, List.mem_mergeSort, List.mem_eraseDups, List.mem_filterMap, List.mem_filter]
  constructor
  · rintro ⟨s, ⟨k, ⟨hk, hreach⟩, hs⟩, rfl⟩
    obtain ⟨t, rfl, -⟩ := isReached_eq_true_iff.1 hreach
    obtain rfl : t = s := Option.some.inj hs
    exact ⟨t, hk, hreach, rfl⟩
  · rintro ⟨s, hk, hreach, rfl⟩
    exact ⟨s, ⟨.text s, ⟨hk, hreach⟩, rfl⟩, rfl⟩

theorem mem_disconnectedIssues {g : Graph} {triggers : List Key} {ns : List Named} {i : Issue} :
    i ∈ disconnectedIssues g triggers ns ↔ ∃ x ∈ ns, isDisconnected g triggers x = true ∧
      i = ⟨.error, .disconnected, "Node '" ++ x.key.toText ++ "' has no incoming connection", true, .ofKey x.key⟩ := by
  simp only [disconnectedIssues, List.mem_map, List.mem_filter]
  constructor
  · rintro ⟨x, ⟨hx, hd⟩, rfl⟩
    exact ⟨x, hx, hd, rfl⟩
  · rintro ⟨x, hx, hd, rfl⟩
    exact ⟨x, ⟨hx, hd⟩, rfl⟩

/-! ## Single nodes -/

theorem emptyPorts_eq_nil_iff {first : Nat} {ports : List Port} :
    emptyPorts first ports = [] ↔ ∀ p ∈ ports, p ≠ [] := by
  induction ports generalizing first with
  | nil => simp [emptyPorts]
  | cons p ports ih =>
    unfold emptyPorts
    split
    · rename_i h
      simp [List.isEmpty_iff.1 h]
    · rename_i h
      rw [ih, List.forall_mem_cons, List.isEmpty_iff] at *
      simp [h]

theorem of_mem_emptyPorts {first k : Nat} {ports : List Port} (h : k ∈ emptyPorts first ports) :
    ∃ j, k = first + j ∧ ports[j]? = some [] := by
  induction ports generalizing first with
  | nil => simp [emptyPorts] at h
  | cons p ports ih =>
    have hlater : k ∈ emptyPorts (first + 1) ports → ∃ j, k = first + j ∧ (p :: ports)[j]? = some [] := by
      intro h
      obtain ⟨j, rfl, hj⟩ := ih h
      exact ⟨j + 1, by omega, hj⟩
    unfold emptyPorts at h
    split at h
    · rename_i hempty
      rcases List.mem_cons.1 h with rfl | h
      · exact ⟨0, rfl, by simp [List.isEmpty_iff.1 hempty]⟩
      · exact hlater h
    · exact hlater h

/-- a switch about which nothing is reported has a port for each rule it declares, and no empty one -/
theorem switchIssues_eq_nil {c : Connections} {x : Named} (h : switchIssues c x = .ok [])
    (hs : x.node.isSwitch = true) :
    ∃ declared, declaredBranches x.node = .ok declared ∧
      (declared ≠ 0 → (c.ports x.key mainType).length = declared) ∧ ∀ p ∈ c.ports x.key mainType, p ≠ [] := by
  unfold switchIssues at h
  rw [hs] at h
  obtain ⟨declared, hdecl, h⟩ := bind_eq_ok.1 h
  obtain ⟨hcount, hempty⟩ := List.append_eq_nil_iff.1 (Except.ok.inj h)
  refine ⟨declared, hdecl, fun hne => ?_, emptyPorts_eq_nil_iff.1 (List.map_eq_nil_iff.1 hempty)⟩
  by_contra hlen
  simp [hne, hlen] at hcount

theorem of_mem_switchIssues {c : Connections} {x : Named} {l : List Issue} (h : switchIssues c x = .ok l) {i : Issue}
    (hi : i ∈ l) : i.severity = .error ∧ i.category = .switch := by
  unfold switchIssues at h
  split at h
  · cases h
    simp at hi
  · obtain ⟨declared, -, h⟩ := bind_eq_ok.1 h
    cases h
    rcases List.mem_append.1 hi with hi | hi
    · split at hi
      · rw [List.mem_singleton.1 hi]
        exact ⟨rfl, rfl⟩
      · simp at hi
    · obtain ⟨k, -, rfl⟩ := List.mem_map.1 hi
      exact ⟨rfl, rfl⟩

theorem isSwitch_of_mem_switchIssues {c : Connections} {x : Named} {l : List Issue} (h : switchIssues c x = .ok l)
    {i : Issue} (hi : i ∈ l) : x.node.isSwitch = true := by
  by_contra hnot
  rw [switchIssues, if_pos (by simpa using hnot)] at h
  cases h
  cases hi

/-- what is reported about a switch with a port for each rule that it declares is an empty port -/
theorem empty_of_mem_switchIssues {c : Connections} {x : Named} {l : List Issue} (h : switchIssues c x = .ok l)
    {i : Issue} (hi : i ∈ l) {declared : Nat} (hdeclared : declaredBranches x.node = .ok declared)
    (hcount : declared ≠ 0 → (c.ports x.key mainType).length = declared) :
    ∃ k : Nat, (c.ports x.key mainType)[k]? = some [] ∧
      i = .error .switch ("Switch '" ++ x.key.toText ++ "' " ++ "output " ++ toString k ++ " is empty")
        (.ofKey x.key) := by
  unfold switchIssues at h
  split at h
  · cases h
    simp at hi
  · rw [hdeclared] at h
    cases h
    rw [if_neg fun hwrong => hwrong.2 (hcount hwrong.1), List.nil_append] at hi
    obtain ⟨k, hk, rfl⟩ := List.mem_map.1 hi
    obtain ⟨j, rfl, hj⟩ := of_mem_emptyPorts hk
    exact ⟨j, hj, by rw [Nat.zero_add]⟩

/-- a node is reported for its output when it needs one, has none, and a node follows it that is not reported itself -/
theorem of_mem_outgoingIssues {cfg : BuildConfig} {c : Connections} {candidates : List Node} {disconnected : List Key}
    {x : Named} {l : List Issue} (h : outgoingIssues cfg c candidates disconnected x = .ok l) {i : Issue} (hi : i ∈ l) :
    i.severity = .warning ∧ i.category = .noOutgoing ∧ x.node.isConcluding = false ∧ c.hasOutgoing x.key = false ∧
      ∃ follower, Rows.successor id (.whole cfg.rowTolerance) (.whole cfg.rowMinDx) x.node candidates =
        .ok (some follower) := by
  unfold outgoingIssues at h
  split at h
  · cases h
    simp at hi
  · rename_i hopen
    rw [Bool.or_eq_true, not_or, Bool.not_eq_true, Bool.not_eq_true] at hopen
    obtain ⟨found, hfound, h⟩ := bind_eq_ok.1 h
    split at h
    · cases h
      simp at hi
    · rename_i follower
      obtain ⟨key, -, h⟩ := bind_eq_ok.1 h
      split at h
      · cases h
        simp at hi
      · cases h
        rw [List.mem_singleton.1 hi]
        exact ⟨rfl, rfl, hopen.1, hopen.2, follower, hfound⟩

theorem mem_parameterIssues {x : Named} {i : Issue} :
    i ∈ parameterIssues x ↔ Parameters.missing x.node ≠ [] ∧
      i = ⟨.warning, .parameters, "Node '" ++ x.key.toText ++ "' is missing parameters: " ++
        Text.joinWith ", " (Parameters.missing x.node), false, .ofKey x.key⟩ := by
  simp only [parameterIssues]
  split
  · rename_i h
    simp [List.isEmpty_iff.1 h]
  · rename_i h
    rw [List.isEmpty_iff] at h
    simp [h]

/-! ## The report -/

/-- the names of nodes that no edge leads to -/
def disconnectedKeys (g : Graph) (ns : List Named) : List Key :=
  (ns.filter (isDisconnected g (triggerKeys ns))).map (·.key)

/-- the nodes that may follow another one on its row -/
def followers (ns : List Named) : List Node := (ns.filter fun x => !x.node.isTrigger).map (·.node)

theorem followers_eq (ns : List Named) : followers ns = (ns.map (·.node)).filter fun m => !m.isTrigger := by
  rw [List.filter_map]
  rfl

/-- what the checks of a document with nodes found, and the report that it makes -/
structure Examined (cfg : BuildConfig) (document : Fields) (r : Report) (ns : List Named) (g : Graph) (c : Connections)
    (switches outgoing : List (List Issue)) : Prop where
  nodes : named (Document.nodesOf (Value.field "nodes" document)) = .ok ns
  graph : Graph.ofDocument document = .ok g
  load : Connections.load (Value.field "connections" document) = .ok c
  ports : ns.mapM (switchIssues c) = .ok switches
  outputs : ns.mapM (outgoingIssues cfg c (followers ns) (disconnectedKeys g ns)) = .ok outgoing
  issues : r.issues = schemaIssues document ++ (triggerIssues ns ++ nameIssues ns ++
    danglingIssues (ns.map (·.key)) [] (references c) ++ incomingIssues g (triggerKeys ns) ++
    disconnectedIssues g (triggerKeys ns) ns ++ switches.flatten ++ outgoing.flatten ++ ns.flatMap parameterIssues)

/-- the report on a document without nodes says so -/
theorem validate_without_nodes {cfg : BuildConfig} {document : Fields} {r : Report}
    (h : validate cfg (.object document) = .ok r) (hn : Document.nodesOf (Value.field "nodes" document) = []) :
    r.issues = schemaIssues document ++ [.error .empty "Workflow has no nodes" .null] := by
  simp only [validate] at h
  split at h
  · cases h
  · rw [hn] at h
    cases h
    rfl

/-- the report on a document with nodes is made of what the checks found -/
theorem examined_of_validate {cfg : BuildConfig} {document : Fields} {r : Report}
    (h : validate cfg (.object document) = .ok r) (hn : Document.nodesOf (Value.field "nodes" document) ≠ []) :
    ∃ ns g c switches outgoing, Examined cfg document r ns g c switches outgoing := by
  simp only [validate] at h
  split at h
  · cases h
  · obtain ⟨found, hfound, rfl⟩ := map_eq_ok.1 h
    obtain ⟨ns, hns, hfound⟩ := bind_eq_ok.1 hfound
    obtain ⟨g, hg, hfound⟩ := bind_eq_ok.1 hfound
    obtain ⟨c, hc, hfound⟩ := bind_eq_ok.1 hfound
    obtain ⟨switches, hswitches, hfound⟩ := bind_eq_ok.1 hfound
    obtain ⟨outgoing, houtgoing, hfound⟩ := bind_eq_ok.1 hfound
    cases hfound
    exact ⟨ns, g, c, switches, outgoing, ⟨hns, hg, hc, hswitches, houtgoing, rfl⟩⟩

end Validation

end WorkflowGraph
