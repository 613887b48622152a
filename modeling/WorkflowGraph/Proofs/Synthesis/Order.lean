import WorkflowGraph.Proofs.Synthesis.Build
/-
The graph of a plan. Every edge leads to the right and stays within its branch, so that the graph has no cycle, and the
nodes of a branch are those that its trigger leads to.

- `Ordered.growth`: what growth keeps of this.
- `build_leftToRight`: the document of a plan.
-/
namespace WorkflowGraph

namespace Canvas

variable {cfg : BuildConfig} {p : Plan}

/-- an edge leads from one name to another -/
def Joined (c : Canvas) (a b : String) : Prop := c.connections.Joins (.text a) b

/-- edges lead to the right within a branch, and to no trigger; every other node is entered; and what stands in a branch
is reached from its only trigger -/
structure Ordered (cfg : BuildConfig) (c : Canvas) : Prop where
  edges : ∀ a b, c.Joined a b → ∃ n ∈ c.nodes, ∃ m ∈ c.nodes, n.name = a ∧ m.name = b ∧ n.branch = m.branch ∧
    (0 < cfg.spacingX → n.x < m.x) ∧
    (Catalog.isTriggerType cfg.defaultNodeType = false → Catalog.isTriggerType m.type = false)
  entered : ∀ n ∈ c.nodes, Catalog.isTriggerType n.type = true ∨ ∃ a, c.Joined a n.name
  rooted : ∀ n ∈ c.nodes, ∀ k, n.branch = some k →
    ∃ t ∈ c.nodes, t.branch = some k ∧ t.origin = .trigger ∧ Relation.ReflTransGen c.Joined t.name n.name
  single : ∀ t ∈ c.nodes, ∀ t' ∈ c.nodes, t.origin = .trigger → t'.origin = .trigger → t.branch = t'.branch → t = t'
  starts : ∀ t ∈ c.nodes, t.origin = .trigger → Catalog.isTriggerType t.type = true
  handling : ∀ n ∈ c.nodes, n.branch = none → n.origin = .errorHandling

theorem ordered_empty (sources : Identifiers) : Ordered cfg (.empty sources) where
  edges := by
    rintro a b ⟨portType, i, e, he, -⟩
    simp [Canvas.empty, Connections.empty, Connections.portAt, Connections.ports, Connections.portTable,
      Table.get?] at he
  entered := by simp [Canvas.empty]
  rooted := by simp [Canvas.empty]
  single := by simp [Canvas.empty]
  starts := by simp [Canvas.empty]
  handling := by simp [Canvas.empty]

/-- how a node comes to stand on a canvas, with the names of the nodes that lead to it: it starts something, as the
first node of its branch or beside the branches, or it is entered from nodes to its left in its branch -/
inductive Enters (cfg : BuildConfig) (c : Canvas) (m : PlacedNode) : List String → Prop
  | starting (htype : Catalog.isTriggerType m.type = true)
      (hfirst : ∀ k, m.branch = some k → m.origin = .trigger ∧ ∀ n ∈ c.nodes, n.branch ≠ some k) : Enters cfg c m []
  | fed {sources : List String} (hne : sources ≠ [])
      (hleft : ∀ a ∈ sources, ∃ n ∈ c.nodes, n.name = a ∧ n.branch = m.branch ∧ (0 < cfg.spacingX → n.x < m.x))
      (htype : Catalog.isTriggerType cfg.defaultNodeType = false → Catalog.isTriggerType m.type = false)
      (horigin : m.origin ≠ .trigger) : Enters cfg c m sources

/-- one node more, with the edges to it -/
theorem Ordered.snoc {c d : Canvas} (h : Ordered cfg c) {m : PlacedNode} {sources : List String}
    (hnodes : d.nodes = c.nodes ++ [m]) (hjoined : ∀ a b, d.Joined a b ↔ c.Joined a b ∨ (m.name = b ∧ a ∈ sources))
    (henters : Enters cfg c m sources) (hhandling : m.branch = none → m.origin = .errorHandling) : Ordered cfg d := by
  have hold : ∀ {n}, n ∈ c.nodes → n ∈ d.nodes := fun hn => hnodes ▸ List.mem_append_left _ hn
  have hnew : m ∈ d.nodes := hnodes ▸ List.mem_append_right _ List.mem_cons_self
  have hmem : ∀ {n}, n ∈ d.nodes → n ∈ c.nodes ∨ n = m := by
    intro n hn
    rw [hnodes] at hn
    simpa using hn
  have hmore : ∀ {a b}, c.Joined a b → d.Joined a b := fun hab => (hjoined _ _).2 (Or.inl hab)
  have hpath : ∀ {a b}, Relation.ReflTransGen c.Joined a b → Relation.ReflTransGen d.Joined a b :=
    fun hab => Relation.ReflTransGen.mono (fun _ _ => hmore) _ _ hab
  refine ⟨?_, ?_, ?_, ?_, ?_, ?_⟩
  · intro a b hab
    rcases (hjoined a b).1 hab with hab | ⟨rfl, ha⟩
    · obtain ⟨n, hn, m', hm', hrest⟩ := h.edges a b hab
      exact ⟨n, hold hn, m', hold hm', hrest⟩
    · cases henters with
      | starting htype hfirst => cases ha
      | fed hne hleft htype horigin =>
        obtain ⟨n, hn, hname, hbranch, hx⟩ := hleft a ha
        exact ⟨n, hold hn, m, hnew, hname, rfl, hbranch, hx, htype⟩
  · intro n hn
    rcases hmem hn with hn | rfl
    · exact (h.entered n hn).imp_right fun ⟨a, ha⟩ => ⟨a, hmore ha⟩
    · cases henters with
      | starting htype hfirst => exact Or.inl htype
      | fed hne hleft htype horigin =>
        obtain ⟨a, ha⟩ := List.exists_mem_of_ne_nil sources hne
        exact Or.inr ⟨a, (hjoined _ _).2 (Or.inr ⟨rfl, ha⟩)⟩
  · intro n hn k hk
    rcases hmem hn with hn | rfl
    · obtain ⟨t, ht, htk, horigin, hreach⟩ := h.rooted n hn k hk
      exact ⟨t, hold ht, htk, horigin, hpath hreach⟩
    · cases henters with
      | starting htype hfirst => exact ⟨n, hnew, hk, (hfirst k hk).1, Relation.ReflTransGen.refl⟩
      | fed hne hleft htype horigin =>
        -- the way to a node that leads to the new one, and one edge more
        obtain ⟨a, ha⟩ := List.exists_mem_of_ne_nil sources hne
        obtain ⟨s, hs, rfl, hbranch, -⟩ := hleft a ha
        obtain ⟨t, ht, htk, hstart, hreach⟩ := h.rooted s hs k (hbranch.trans hk)
        exact ⟨t, hold ht, htk, hstart, (hpath hreach).tail ((hjoined _ _).2 (Or.inr ⟨rfl, ha⟩))⟩
  · -- a second trigger would be the first node of its branch
    have hfirst : m.origin = .trigger → ∀ t ∈ c.nodes, t.branch ≠ m.branch := by
      intro hm t ht hsame
      cases henters with
      | starting htype hfirst =>
        cases hk : m.branch with
        | none => cases hm.symm.trans (hhandling hk)
        | some k => exact (hfirst k hk).2 t ht (hsame.trans hk)
      | fed hne hleft htype horigin => exact horigin hm
    intro t ht t' ht' horigin horigin' hsame
    rcases hmem ht with ht | rfl <;> rcases hmem ht' with ht' | rfl
    · exact h.single t ht t' ht' horigin horigin' hsame
    · exact absurd hsame (hfirst horigin' t ht)
    · exact absurd hsame.symm (hfirst horigin t' ht')
    · rfl
  · intro t ht horigin
    rcases hmem ht with ht | rfl
    · exact h.starts t ht horigin
    · cases henters with
      | starting htype hfirst => exact htype
      | fed hne hleft htype hnot => exact absurd horigin hnot
  · intro n hn hnone
    rcases hmem hn with hn | rfl
    · exact h.handling n hn hnone
    · exact hhandling hnone

/-- a node placed with edges to it -/
theorem Ordered.grow {c : Canvas} (h : Ordered cfg c) {r : NodeRequest} {feeds : List Feed}
    (henters : Enters cfg c (c.newNode r) (feeds.map (·.source)))
    (hhandling : c.branch = none → r.origin = .errorHandling) : Ordered cfg (c.grow r feeds) := by
  refine h.snoc (nodes_grow c r feeds) (fun a b => ?_) henters hhandling
  rw [Joined, connections_grow, Connections.joins_feed, List.mem_map]
  rfl

/-- a node placed without any -/
theorem Ordered.add {c : Canvas} (h : Ordered cfg c) {r : NodeRequest} (henters : Enters cfg c (c.newNode r) [])
    (hhandling : c.branch = none → r.origin = .errorHandling) : Ordered cfg (c.add r).2 := by
  refine h.snoc (nodes_add c r) (fun a b => ?_) henters hhandling
  rw [Joined, connections_add]
  simp [Joined]

/-- a request for a node inside a branch is for no trigger -/
theorem ne_trigger_of_inner {r : NodeRequest} (hr : r.Inner cfg) : r.origin ≠ .trigger := by
  intro horigin
  have hadmits := hr.origin
  rw [horigin] at hadmits
  exact hadmits

/-- a node inside a branch is entered from its left -/
theorem enters_of_mayFeed {c : Canvas} {r : NodeRequest} {feeds : List Feed} (hr : r.Inner cfg) (hne : feeds ≠ [])
    (hfeeds : ∀ f ∈ feeds, c.MayFeed cfg r.x f) :
    c.branch ≠ none ∧ Enters cfg c (c.newNode r) (feeds.map (·.source)) := by
  obtain ⟨f, hf⟩ := List.exists_mem_of_ne_nil feeds hne
  obtain ⟨⟨k, hk, -⟩, -⟩ := hfeeds f hf
  refine ⟨by simp [hk], .fed (by simpa using hne) (fun a ha => ?_) hr.type (ne_trigger_of_inner hr)⟩
  obtain ⟨f, hf, rfl⟩ := List.mem_map.1 ha
  obtain ⟨⟨k', hk', n, hn, hname, hnk, hx⟩, -⟩ := hfeeds f hf
  exact ⟨n, hn, hname, hnk.trans hk'.symm, hx⟩

theorem Ordered.act {c d : Canvas} (h : Ordered cfg c) (hact : Act cfg c d) : Ordered cfg d := by
  cases hact with
  | noted rule detail => exact ⟨h.edges, h.entered, h.rooted, h.single, h.starts, h.handling⟩
  | placed r feeds hr hplain hne hfeeds =>
    obtain ⟨hbranch, henters⟩ := enters_of_mayFeed hr hne hfeeds
    exact h.grow henters fun hnone => absurd hnone hbranch

theorem Ordered.openPorts {c : Canvas} (h : Ordered cfg c) (source : String) (count : Nat) :
    Ordered cfg (c.openPorts source count) := by
  have hjoined : (c.openPorts source count).Joined = c.Joined := by
    funext a b
    exact propext Connections.joins_ensurePorts
  refine ⟨?_, ?_, ?_, h.single, h.starts, h.handling⟩
  · rw [hjoined]
    exact h.edges
  · rw [hjoined]
    exact h.entered
  · rw [hjoined]
    exact h.rooted

theorem Ordered.growth {c d : Canvas} (h : Ordered cfg c) (hgrowth : Growth cfg p c d) : Ordered cfg d := by
  have hturned : ∀ branch y, Ordered cfg { c with branch := branch, lowestY := y } :=
    fun branch y => ⟨h.edges, h.entered, h.rooted, h.single, h.starts, h.handling⟩
  cases hgrowth with
  | acted hact => exact h.act hact
  | begun k y r hnew horigin htype hplain =>
    refine (hturned (some k) y).add (.starting htype fun k' hk' => ⟨horigin, ?_⟩) (by simp)
    cases hk'
    exact hnew
  | routed q rest labels r feeds hq hasked hr horigin htype hrules hlabels hne hfeeds hrouter hroutes hcount hfilled =>
    obtain ⟨hbranch, henters⟩ := enters_of_mayFeed hr hne hfeeds
    subst hrouter
    have hopened := (h.grow henters fun hnone => absurd hnone hbranch).openPorts (c.newNode r).name labels.length
    exact keep_of_acts (fun hact hordered => hordered.act hact) hroutes hopened
  | handled r r' horigin horigin' htype htype' hplain hplain' hx =>
    have hfirst : Ordered cfg ({ c with branch := none }.add r).2 :=
      (hturned none c.lowestY).add (.starting htype fun k hk => by cases hk) fun _ => horigin
    refine hfirst.grow (.fed (List.cons_ne_nil _ _) ?_ (fun _ => htype') ?_) fun _ => horigin'
    · refine List.forall_mem_singleton.2 ⟨({ c with branch := none } : Canvas).newNode r, ?_, rfl, rfl, hx⟩
      rw [nodes_add]
      exact List.mem_append_right _ List.mem_cons_self
    · show r'.origin ≠ .trigger
      rw [horigin']
      exact fun h => nomatch h

end Canvas

namespace Synthesis

open Canvas

/-! ## The graph of a plan -/

/-- a canvas goes from left to right: every edge leads to a node further right that was placed for the same branch, or
joins the nodes that handle errors; so there is no cycle; and every branch has one trigger, which leads to everything
that was placed for the branch -/
structure LeftToRight (p : Plan) (c : Canvas) : Prop where
  distinct : (c.nodes.map (·.name)).Nodup
  edges : ∀ l ∈ c.connections.links, ∃ n ∈ c.nodes, ∃ m ∈ c.nodes, l.source = .text n.name ∧ l.edge.node = m.name ∧
    n.x < m.x ∧
    ((∃ k, n.branch = some k ∧ m.branch = some k) ∨ (n.origin = .errorHandling ∧ m.origin = .errorHandling))
  acyclic : ∀ a, ¬ Relation.TransGen c.Joined a a
  rooted : ∀ k < p.branches.length, ∃ t ∈ c.nodes, t.branch = some k ∧ t.origin = .trigger ∧
    (∀ t' ∈ c.nodes, t'.branch = some k → t'.origin = .trigger → t' = t) ∧
    ∀ n ∈ c.nodes, n.branch = some k → Relation.ReflTransGen c.Joined t.name n.name

/-- edges one after the other lead to the right -/
theorem right_of_transGen {cfg : BuildConfig} {c : Canvas} (hx : 0 < cfg.spacingX) (hordered : Ordered cfg c)
    (hsound : Sound c) {a b : String} (h : Relation.TransGen c.Joined a b) :
    ∃ n ∈ c.nodes, ∃ m ∈ c.nodes, n.name = a ∧ m.name = b ∧ n.x < m.x := by
  have hedge : ∀ {a b}, c.Joined a b → ∃ n ∈ c.nodes, ∃ m ∈ c.nodes, n.name = a ∧ m.name = b ∧ n.x < m.x := by
    intro a b hab
    obtain ⟨n, hn, m, hm, hna, hmb, -, hright, -⟩ := hordered.edges a b hab
    exact ⟨n, hn, m, hm, hna, hmb, hright hx⟩
  induction h with
  | single hab => exact hedge hab
  | tail _ hbc ih =>
    obtain ⟨n, hn, m, hm, hna, hmb, hright⟩ := ih
    obtain ⟨m', hm', o, ho, hmb', hoc, hright'⟩ := hedge hbc
    cases hsound.eq_of_name hm hm' (hmb.trans hmb'.symm)
    exact ⟨n, hn, o, ho, hna, hoc, hright.trans hright'⟩

/-- every branch of a plan has a trigger -/
theorem exists_trigger_lay (cfg : BuildConfig) (sources : Identifiers) {p : Plan} {k : Nat}
    (hk : k < p.branches.length) :
    ∃ t ∈ (lay cfg sources p).nodes, t.branch = some k ∧ t.origin = .trigger := by
  obtain ⟨t, body, answer, hlist, htrigger, -⟩ := (lay_grows cfg sources p).2 k _ (List.getElem?_eq_getElem hk)
  have ht : t ∈ (lay cfg sources p).nodes.filter fun n => n.branch = some k := by
    rw [hlist]
    exact List.mem_append_left _ List.mem_cons_self
  rw [List.mem_filter, decide_eq_true_iff] at ht
  exact ⟨t, ht.1, ht.2, htrigger⟩

theorem ordered_lay (cfg : BuildConfig) (sources : Identifiers) (p : Plan) : Ordered cfg (lay cfg sources p) :=
  lay_induction (ordered_empty sources) fun _ hgrowth h => h.growth hgrowth

theorem leftToRight_lay {cfg : BuildConfig} (hx : 0 < cfg.spacingX) (sources : Identifiers) (p : Plan) :
    LeftToRight p (lay cfg sources p) := by
  have hordered := ordered_lay cfg sources p
  have hsound := sound_lay cfg sources p
  have hkeyed := hsound.canonical.toKeyed
  generalize hc : lay cfg sources p = c at hordered hsound hkeyed
  refine ⟨hsound.distinct, fun l hl => ?_, fun a hcycle => ?_, fun k hk => ?_⟩
  · obtain ⟨x, hx', hsource, -⟩ := Connections.mem_links_iff.1 hl
    obtain ⟨a, ha⟩ := hkeyed.texts x hx'
    have hjoined : c.Joined a l.edge.node := hkeyed.exists_link_iff.1 ⟨l, hl, hsource.symm.trans ha, rfl⟩
    obtain ⟨n, hn, m, hm, rfl, hmb, hbranch, hright, -⟩ := hordered.edges _ _ hjoined
    refine ⟨n, hn, m, hm, hsource.symm.trans ha, hmb.symm, hright hx, ?_⟩
    cases hk : n.branch with
    | some k => exact Or.inl ⟨k, rfl, hbranch.symm.trans hk⟩
    | none => exact Or.inr ⟨hordered.handling n hn hk, hordered.handling m hm (hbranch.symm.trans hk)⟩
  · obtain ⟨n, hn, m, hm, hna, hma, hright⟩ := right_of_transGen hx hordered hsound hcycle
    cases hsound.eq_of_name hn hm (hna.trans hma.symm)
    exact lt_irrefl _ hright
  · obtain ⟨t, ht, htk, htrigger⟩ := hc ▸ exists_trigger_lay cfg sources hk
    have honly : ∀ t' ∈ c.nodes, t'.branch = some k → t'.origin = .trigger → t' = t :=
      fun t' ht' htk' htrigger' => hordered.single t' ht' t ht htrigger' htrigger (htk'.trans htk.symm)
    refine ⟨t, ht, htk, htrigger, honly, fun n hn hnk => ?_⟩
    obtain ⟨t', ht', htk', htrigger', hreach⟩ := hordered.rooted n hn k hnk
    rwa [honly t' ht' htk' htrigger'] at hreach

/-- **The graph of a plan goes from left to right**, without a cycle, and every branch is rooted at its trigger. -/
theorem build_leftToRight {cfg : BuildConfig} {sources : Identifiers} {p : Plan} {built : Built}
    (hx : 0 < cfg.spacingX) (h : build cfg sources p = .ok built) :
    ∃ sources', Shows built.document (lay cfg sources' p) ∧ LeftToRight p (lay cfg sources' p) := by
  obtain ⟨sources', hshows⟩ := build_shows h
  exact ⟨sources', hshows, leftToRight_lay hx sources' p⟩

theorem build_leftToRight_ordersPlan : 0 < BuildConfig.standard.spacingX ∧
    ∃ built, build .standard ordersSources ordersPlan = .ok built ∧ ∃ sources',
      Shows built.document (lay .standard sources' ordersPlan) ∧
        LeftToRight ordersPlan (lay .standard sources' ordersPlan) := by
  have hx : 0 < BuildConfig.standard.spacingX := by decide
  obtain ⟨built, hbuilt, -⟩ := exists_build_ordersPlan
  exact ⟨hx, built, hbuilt, build_leftToRight hx hbuilt⟩

end Synthesis

end WorkflowGraph
