import WorkflowGraph.Proofs.Synthesis.Routes
import WorkflowGraph.Proofs.Synthesis.Trailing
/-
The ends of a branch. A branch that was laid out leads nowhere at its last node alone, unless its last motif is a switch
whose routes nothing merges and no answer is pending: then it leads nowhere at these routes. A branch that a webhook
starts leads nowhere at its answer.

- `layBranch_trailing`: how a branch ends, on whatever canvas it is laid out.
- `layBranches_swept`: branches laid out later leave the ends of a branch alone.
- `build_sinks`: the nodes without outgoing edges in every branch of the document of a plan.
-/
namespace WorkflowGraph

/-- a node answers the caller of a webhook, by its type or by its name -/
def PlacedNode.Answers (n : PlacedNode) : Prop :=
  n.type = Synthesis.responseType ∨ Text.contains (Text.lower n.name) "respon" = true

namespace Synthesis

open Canvas

variable (cfg : BuildConfig) {s c : Canvas} {body : List PlacedNode} {at' : Cursor}

/-! ## Answers -/

theorem addTrigger_stops (h : Trailing s [] [] c) (text : String) (x y : Int) :
    ∃ m, Stops s [m] (addTrigger c text x y).1 (addTrigger c text x y).2 := by
  have hadd : ∀ r : NodeRequest, ∃ m, Stops s [m] (c.add r).1 (c.add r).2 := by
    intro r
    have hgrown : Trailing s ([] ++ [c.newNode r]) [(c.newNode r).name] (c.grow r []) := h.grow (by simp) (by simp)
    rw [grow_nil] at hgrown
    exact ⟨_, stops_of_new hgrown⟩
  have hplaced : ∀ lower, ∃ m, Stops s [m] (placeTrigger c lower x y).1 (placeTrigger c lower x y).2 := by
    intro lower
    unfold placeTrigger
    dsimp only
    split
    · exact hadd _
    · split
      · dsimp only
        generalize NodeRequest.mk (Catalog.fullTag "scheduleTrigger") _ _ _ _ _ _ = r
        obtain ⟨m, hstops⟩ := hadd r
        exact ⟨m, hstops.note _ _⟩
      · split
        · exact hadd _
        · exact hadd _
  unfold addTrigger
  dsimp only
  obtain ⟨m, hstops⟩ := hplaced (Text.lower text)
  exact ⟨m, hstops.note _ _⟩

/-- a node that is found to be an answer is one -/
theorem answers_of_isResponse (hc : Sound c) {n : PlacedNode} (hn : n ∈ c.nodes) (h : isResponse c n.name = true) :
    n.Answers := by
  unfold isResponse at h
  split at h
  · rename_i m hm
    have hname : m.name = n.name := by simpa using List.find?_some hm
    obtain rfl : m = n := hc.eq_of_name (List.mem_of_find?_eq_some hm) hn hname
    simpa [PlacedNode.Answers] using h
  · cases h

/-- a branch that was laid out to one end is answered at its end -/
theorem addResponse_stops (h : Stops s body at'.current c) (y : Int) :
    ∃ before n, Trailing s (before ++ [n]) [n.name] (addResponse c at' y) ∧ n.Answers := by
  obtain ⟨before, n, rfl, hname⟩ := h.last
  unfold addResponse
  split
  · rename_i hanswer
    rw [← hname] at hanswer
    exact ⟨before, n, hname ▸ h.toTrailing, answers_of_isResponse h.sound (h.toTrailing.mem (by simp)) hanswer⟩
  · dsimp only
    rw [connect_add]
    generalize hq : NodeRequest.mk responseType "Respond to Webhook" at'.x y [] 1 .response = q
    have hanswered : Trailing s ((before ++ [n]) ++ [c.newNode q]) [(c.newNode q).name]
        (c.grow q [⟨at'.current, 0, 0⟩]) :=
      h.toTrailing.grow (List.forall_mem_singleton.2 h.mem) fun a => by simp [ne_comm]
    exact ⟨before ++ [n], c.newNode q, hanswered, Or.inl (hq ▸ rfl)⟩

end Synthesis

namespace Canvas

open Synthesis

/-! ## Branches -/

/-- the nodes of the branch with a given number, in the order in which they were placed -/
def branchNodes (c : Canvas) (k : Nat) : List PlacedNode := c.nodes.filter fun n => decide (n.branch = some k)

/-- what the branch with a given number ends with: the routes of its last switch, two at least, when nothing merges them
and it owes no answer, or else the last of its nodes, which answers the caller of a webhook -/
inductive BranchEnds (c : Canvas) (k : Nat) (b : PlanBranch) : List PlacedNode → Prop
  | routes {q : Requirement} {routes : List Requirement} {before ends : List PlacedNode} {router : PlacedNode}
      (howes : owesResponse b = false) (hlast : lastSwitch? b.requirements = some (q, routes))
      (hswitch : q.isSwitch = true) (hmany : 2 ≤ routes.length) (hbehind : q :: routes <:+ b.requirements)
      (hnodes : c.branchNodes k = before ++ router :: ends) (hrouter : router.origin = .step q)
      (hends : ends.map (·.origin) = routes.map Origin.step) (hjoined : ∀ m ∈ ends, c.Joined router.name m.name) :
      BranchEnds c k b ends
  | last {before : List PlacedNode} {n : PlacedNode}
      (hlast : owesResponse b = true ∨ lastSwitch? b.requirements = none) (hnodes : c.branchNodes k = before ++ [n])
      (hanswers : owesResponse b = true → n.Answers) : BranchEnds c k b [n]

/-- the nodes of a branch without outgoing edges are what it ends with -/
def Sinks (c : Canvas) (k : Nat) (b : PlanBranch) : Prop :=
  ∃ ends, c.BranchEnds k b ends ∧ ∀ n ∈ c.branchNodes k, (∀ t, ¬ c.Joined n.name t) ↔ n ∈ ends

variable {s c : Canvas} {body : List PlacedNode} {tips : List String} {k : Nat} {b : PlanBranch}

/-- a branch that is not on the canvas yet can begin -/
theorem trailing_nil (hc : Sound c) (hg : ∀ a t, c.Joined a t → c.Places a) (branch : Option Nat) (y : Int) :
    Trailing { c with branch := branch, lowestY := y } [] [] { c with branch := branch, lowestY := y } where
  sound := hc.step (.turned c branch y)
  nodes := (List.append_nil _).symm
  branch := rfl
  mine := by simp
  grounded := hg
  same _ _ _ := Iff.rfl
  placed := by simp
  sinks := by simp

theorem Trailing.branchNodes_eq (h : Trailing s body tips c) (hs : s.branch = some k)
    (hnew : ∀ n ∈ s.nodes, n.branch ≠ some k) : c.branchNodes k = body := by
  have hold : s.nodes.filter (fun n => decide (n.branch = some k)) = [] := by simpa using hnew
  have hmine : body.filter (fun n => decide (n.branch = some k)) = body := by
    rw [List.filter_eq_self]
    exact fun n hn => decide_eq_true ((h.mine n hn).trans hs)
  rw [branchNodes, h.nodes, List.filter_append, hold, hmine, List.nil_append]

/-- a branch that has just been laid out leads nowhere at what it ends with -/
theorem Trailing.sinks_of_ends {ends : List PlacedNode} (h : Trailing s body (ends.map (·.name)) c)
    (hs : s.branch = some k) (hnew : ∀ n ∈ s.nodes, n.branch ≠ some k) (hmem : ∀ m ∈ ends, m ∈ body)
    (hends : c.branchNodes k = body → c.BranchEnds k b ends) : c.Sinks k b := by
  have hnodes := h.branchNodes_eq hs hnew
  refine ⟨ends, hends hnodes, fun n hn => ?_⟩
  rw [hnodes] at hn
  rw [h.sinks n hn]
  constructor
  · -- names tell the nodes of a canvas apart
    intro hname
    obtain ⟨m, hm, hsame⟩ := List.mem_map.1 hname
    obtain rfl : m = n := h.sound.eq_of_name (h.mem (hmem m hm)) (h.mem hn) hsame
    exact hm
  · exact List.mem_map_of_mem

/-- the ends of a branch depend on its nodes and on where these lead -/
theorem Sinks.of_same {d : Canvas} (h : c.Sinks k b) (hnodes : d.branchNodes k = c.branchNodes k)
    (hsame : ∀ n ∈ c.branchNodes k, ∀ t, d.Joined n.name t ↔ c.Joined n.name t) : d.Sinks k b := by
  obtain ⟨ends, hends, hiff⟩ := h
  refine ⟨ends, ?_, fun n hn => ?_⟩
  · cases hends with
    | routes howes hlast hswitch hmany hbehind hsplit hrouter horigins hjoined =>
      refine .routes howes hlast hswitch hmany hbehind (hnodes.trans hsplit) hrouter horigins fun m hm => ?_
      exact (hsame _ (by simp [hsplit]) _).2 (hjoined m hm)
    | last hlast hsplit hanswers => exact .last hlast (hnodes.trans hsplit) hanswers
  · rw [hnodes] at hn
    rw [← hiff n hn]
    exact forall_congr' fun t => not_congr (hsame n hn t)

/-- **A branch leaves the ends of the others alone.** -/
theorem Trailing.sinks_kept {d : Canvas} {branch : Option Nat} {y : Int}
    (h : Trailing { c with branch := branch, lowestY := y } body tips d) (hk : branch ≠ some k) (hsinks : c.Sinks k b) :
    d.Sinks k b := by
  have hother : body.filter (fun n => decide (n.branch = some k)) = [] := by
    rw [List.filter_eq_nil_iff]
    exact fun n hn => by simpa [h.mine n hn] using hk
  have hnodes : d.branchNodes k = c.branchNodes k := by
    rw [branchNodes, h.nodes, List.filter_append, hother, List.append_nil, branchNodes]
  exact hsinks.of_same hnodes fun n hn => h.same n (List.mem_filter.1 hn).1

end Canvas

namespace Synthesis

open Canvas

variable (cfg : BuildConfig) {c : Canvas} {number : Nat}

/-- **How a branch ends**, on whatever canvas it is laid out. -/
theorem layBranch_trailing (hc : Sound c) (hg : ∀ a t, c.Joined a t → c.Places a)
    (hnew : ∀ n ∈ c.nodes, n.branch ≠ some number) (b : PlanBranch) (y : Int) :
    ∃ body tips, Trailing { c with branch := some number, lowestY := y } body tips (layBranch cfg c number b y) ∧
      (layBranch cfg c number b y).Sinks number b := by
  have hbegun := trailing_nil hc hg (some number) y
  generalize hs : ({ c with branch := some number, lowestY := y } : Canvas) = s at hbegun ⊢
  have hbranch : s.branch = some number := hs ▸ rfl
  have hnew' : ∀ n ∈ s.nodes, n.branch ≠ some number := hs ▸ hnew
  obtain ⟨m, htrigger⟩ := addTrigger_stops hbegun b.triggerType cfg.startX y
  unfold layBranch
  dsimp only
  rw [hs]
  generalize addTrigger s b.triggerType cfg.startX y = out at htrigger ⊢
  have hfirst : ∃ body, Stops s body (Cursor.mk out.1 (cfg.startX + cfg.spacingX)).current out.2 := ⟨_, htrigger⟩
  have hended := layAll_ended cfg (owesResponse b) y b.requirements hfirst
  generalize layAll cfg (owesResponse b) out.2 ⟨out.1, cfg.startX + cfg.spacingX⟩ y b.requirements = laid at hended ⊢
  cases hended with
  | stopped hlast hstops =>
    by_cases howes : owesResponse b = true
    · obtain ⟨before, n, hanswered, hanswers⟩ := addResponse_stops hstops y
      have hlaid : Trailing s (before ++ [n]) ([n].map (·.name)) (addResponse laid.1 laid.2 y) := hanswered
      rw [if_pos howes]
      exact ⟨_, _, hlaid, hlaid.sinks_of_ends hbranch hnew' (by simp) fun hnodes =>
        .last (Or.inl howes) hnodes fun _ => hanswers⟩
    · obtain ⟨before, n, rfl, hname⟩ := hstops.last
      have hlaid : Trailing s (before ++ [n]) ([n].map (·.name)) laid.1 := by
        rw [List.map_singleton, hname]
        exact hstops.toTrailing
      rw [if_neg howes]
      exact ⟨_, _, hlaid, hlaid.sinks_of_ends hbranch hnew' (by simp) fun hnodes =>
        .last hlast hnodes fun hpending => absurd hpending howes⟩
  | split hpending hlast hsplits =>
    obtain ⟨before, router, ends, rfl, hrouter, horigins, hlaid, hjoined⟩ := hsplits.ends
    obtain ⟨hswitch, hmany, hbehind⟩ := lastSwitch?_eq_some hlast
    rw [hpending, if_neg Bool.false_ne_true]
    exact ⟨_, _, hlaid, hlaid.sinks_of_ends hbranch hnew' (fun m hm => by simp [hm]) fun hnodes =>
      .routes hpending hlast hswitch hmany hbehind hnodes hrouter horigins hjoined⟩

end Synthesis

namespace Canvas

/-- the branches that are laid out lead nowhere at what they end with -/
structure Swept (bs : List PlanBranch) (c : Canvas) : Prop where
  sound : Sound c
  grounded : ∀ a t, c.Joined a t → c.Places a
  numbered : ∀ n ∈ c.nodes, ∃ k < bs.length, n.branch = some k
  sinks : ∀ k b, bs[k]? = some b → c.Sinks k b

theorem swept_empty (sources : Identifiers) : Swept [] (.empty sources) where
  sound := sound_empty sources
  grounded a t hjoined := by
    obtain ⟨portType, i, e, he, -⟩ := hjoined
    cases he
  numbered := by simp [Canvas.empty]
  sinks := by simp

end Canvas

namespace Synthesis

open Canvas

variable (cfg : BuildConfig) {c : Canvas} {bs : List PlanBranch}

/-- one more branch -/
theorem layBranch_swept (h : Swept bs c) (b : PlanBranch) (y : Int) :
    Swept (bs ++ [b]) (layBranch cfg c bs.length b y) := by
  have hnew : ∀ n ∈ c.nodes, n.branch ≠ some bs.length := by
    intro n hn hbranch
    obtain ⟨k, hk, hnumber⟩ := h.numbered n hn
    cases hnumber.symm.trans hbranch
    exact Nat.lt_irrefl _ hk
  obtain ⟨body, tips, hlaid, hsinks⟩ := layBranch_trailing cfg h.sound h.grounded hnew b y
  refine ⟨hlaid.sound, hlaid.grounded, fun n hn => ?_, fun k b' hb' => ?_⟩
  · rw [List.length_append, List.length_singleton]
    rw [hlaid.nodes] at hn
    rcases List.mem_append.1 hn with hold | hmine
    · obtain ⟨k, hk, hnumber⟩ := h.numbered n hold
      exact ⟨k, Nat.lt_succ_of_lt hk, hnumber⟩
    · exact ⟨_, Nat.lt_succ_self _, hlaid.mine n hmine⟩
  · rcases Nat.lt_trichotomy k bs.length with hk | rfl | hk
    · rw [List.getElem?_append_left hk] at hb'
      have hother : some bs.length ≠ some k := fun heq => Nat.lt_irrefl k (Option.some.inj heq ▸ hk)
      exact hlaid.sinks_kept hother (h.sinks k b' hb')
    · obtain rfl : b = b' := by simpa using hb'
      exact hsinks
    · rw [List.getElem?_eq_none (by simpa using hk)] at hb'
      cases hb'

/-- all branches, by induction: those laid out later leave the ends of the earlier ones alone -/
theorem layBranches_swept (h : Swept bs c) (y : Int) (rest : List PlanBranch) :
    Swept (bs ++ rest) (layBranches cfg c bs.length y rest) := by
  induction rest generalizing bs c y with
  | nil =>
    rw [List.append_nil]
    exact h
  | cons b rest ih =>
    have hnext := ih (layBranch_swept cfg h b y) ((layBranch cfg c bs.length b y).lowestY + cfg.branchGap)
    rw [List.append_assoc, List.singleton_append, List.length_append, List.length_singleton] at hnext
    rw [layBranches]
    exact hnext

/-- the handling of errors leaves the ends of all branches alone -/
theorem addErrorHandling_sinks (h : Swept bs c) {k : Nat} {b : PlanBranch} (hb : bs[k]? = some b) :
    (addErrorHandling cfg c).Sinks k b := by
  have hbegun := trailing_nil h.sound h.grounded none c.lowestY
  unfold addErrorHandling
  dsimp only
  generalize NodeRequest.mk (Catalog.fullTag "errorTrigger") _ _ _ _ _ _ = r
  generalize NodeRequest.mk (Catalog.fullTag "emailSend") _ _ _ _ _ _ = r'
  rw [connect_add, add_name]
  generalize hd : ({ c with branch := none } : Canvas) = d at hbegun ⊢
  have hfirst : Trailing d [d.newNode r] [(d.newNode r).name] (d.grow r []) := hbegun.grow (by simp) (by simp)
  rw [grow_nil] at hfirst
  have hfeeds : ∀ f ∈ [Feed.mk (d.newNode r).name 0 0], f.source ∈ [d.newNode r].map (·.name) := by simp
  have hspent : ∀ a, a ∈ ([] : List String) ↔
      a ∈ [(d.newNode r).name] ∧ ∀ f ∈ [Feed.mk (d.newNode r).name 0 0], f.source ≠ a := by simp [ne_comm]
  have hboth := (hfirst.grow (r := r') hfeeds hspent).note "error-handling"
  subst hd
  exact (hboth _).sinks_kept (Option.some_ne_none k).symm (h.sinks k b hb)

theorem lay_sinks (sources : Identifiers) (p : Plan) {k : Nat} {b : PlanBranch} (hb : p.branches[k]? = some b) :
    (lay cfg sources p).Sinks k b := by
  have hswept : Swept p.branches (layBranches cfg (.empty sources) 0 cfg.startY p.branches) :=
    layBranches_swept cfg (swept_empty sources) cfg.startY p.branches
  unfold lay
  dsimp only
  split
  · exact addErrorHandling_sinks cfg hswept hb
  · exact hswept.sinks k b hb

/-- **The nodes without outgoing edges.** In the document of a plan a branch leads nowhere at its last node alone, unless
it owes no answer and ends with a switch whose routes nothing merges: then it leads nowhere at these routes. The last
node of a branch that owes an answer is one. -/
theorem build_sinks {cfg : BuildConfig} {sources : Identifiers} {p : Plan} {built : Built}
    (h : build cfg sources p = .ok built) :
    ∃ sources', Shows built.document (lay cfg sources' p) ∧
      ∀ k b, p.branches[k]? = some b → (lay cfg sources' p).Sinks k b := by
  obtain ⟨sources', hshows⟩ := build_shows h
  exact ⟨sources', hshows, fun k b hb => lay_sinks cfg sources' p hb⟩

theorem lastSwitch?_payment : lastSwitch? [paymentStep, paypalStep, plainStep "Charge Stripe"] =
    some (paymentStep, [paypalStep, plainStep "Charge Stripe"]) := by
  have hopen : openSwitch? paymentStep [paypalStep, plainStep "Charge Stripe"] =
      some (paymentStep, [paypalStep, plainStep "Charge Stripe"]) := by
    unfold openSwitch?
    dsimp only
    rw [routesOf_paymentStep]
    exact if_pos ⟨rfl, rfl, Nat.le_refl 2, rfl⟩
  rw [lastSwitch?, hopen, Option.some_or]

/-- a branch that ends with a switch leads nowhere at both of its routes -/
theorem build_sinks_swappedPlan : ∃ built, build .standard ordersSources swappedPlan = .ok built ∧
    ∃ sources', Shows built.document (lay .standard sources' swappedPlan) ∧
      ∃ ends : List PlacedNode, ends.map (·.origin) = [.step paypalStep, .step (plainStep "Charge Stripe")] ∧
        ∀ n ∈ (lay .standard sources' swappedPlan).branchNodes 0,
          (∀ t, ¬ (lay .standard sources' swappedPlan).Joined n.name t) ↔ n ∈ ends := by
  obtain ⟨built, hbuilt⟩ : Succeeds (build .standard ordersSources swappedPlan) := by decide +kernel
  obtain ⟨sources', hshows, hsinks⟩ := build_sinks hbuilt
  obtain ⟨ends, hends, hiff⟩ := hsinks 0 _ rfl
  refine ⟨built, hbuilt, sources', hshows, ends, ?_, hiff⟩
  cases hends with
  | routes howes hlast hswitch hmany hbehind hnodes hrouter horigins hjoined =>
    cases lastSwitch?_payment.symm.trans hlast
    exact horigins
  | last hlast hnodes hanswers =>
    rcases hlast with howes | hnone
    · exact absurd howes (by decide +kernel)
    · cases lastSwitch?_payment.symm.trans hnone

end Synthesis

end WorkflowGraph
