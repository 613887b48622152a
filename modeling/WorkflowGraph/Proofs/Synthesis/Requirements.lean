import WorkflowGraph.Proofs.Synthesis.Build
/-
What the requirements of a plan become. Every requirement of a branch becomes one node, in order, under the name that
the registry gives out for its own; the other nodes of the branch are its trigger, the joints of rows and routes, and
the answer to a caller.

- `Claimed.growth`: what growth keeps of the names.
- `build_realizes`: no motif stands still or runs past the end of a branch, and the document of a plan has all of its
  requirements.
-/
namespace WorkflowGraph

namespace Canvas

variable {cfg : BuildConfig} {p : Plan}

/-! ## Nodes and the nodes before them -/

/-- every node fits the nodes placed before it -/
def EachAfter (P : List PlacedNode → PlacedNode → Prop) (nodes : List PlacedNode) : Prop :=
  ∀ before n after, nodes = before ++ n :: after → P before n

theorem eachAfter_nil (P : List PlacedNode → PlacedNode → Prop) : EachAfter P [] := by
  intro before n after hsplit
  have hlength := congrArg List.length hsplit
  simp at hlength

theorem EachAfter.imp {P Q : List PlacedNode → PlacedNode → Prop} {nodes : List PlacedNode} (h : EachAfter P nodes)
    (hPQ : ∀ before n, P before n → Q before n) : EachAfter Q nodes :=
  fun before n after hsplit => hPQ before n (h before n after hsplit)

theorem EachAfter.snoc {P : List PlacedNode → PlacedNode → Prop} {nodes : List PlacedNode} {m : PlacedNode}
    (h : EachAfter P nodes) (hm : P nodes m) : EachAfter P (nodes ++ [m]) := by
  intro before n after hsplit
  rcases List.eq_nil_or_concat after with rfl | ⟨after, m', rfl⟩
  · obtain ⟨rfl, hlast⟩ := List.append_inj' hsplit rfl
    cases hlast
    exact hm
  · rw [List.concat_eq_append, ← List.cons_append, ← List.append_assoc] at hsplit
    obtain ⟨hnodes, -⟩ := List.append_inj' hsplit rfl
    exact h before n after hnodes

/-! ## Names -/

/-- a node has the name that was claimed for it when the nodes before it had theirs -/
def Claims (before : List PlacedNode) (n : PlacedNode) (wanted : String) : Prop :=
  n.name = (NameRegistry.claim ⟨(before.map (·.name)).reverse⟩ wanted).1

/-- a node has a name that was claimed for it, inside a branch for what the node was placed for -/
def ClaimsOwn (before : List PlacedNode) (n : PlacedNode) : Prop :=
  ∃ wanted, Claims before n wanted ∧
    (n.origin = .trigger ∨ n.origin = .errorHandling ∨ n.origin.Admits wanted n.type)

section

variable {before : List PlacedNode} {n : PlacedNode} (h : ClaimsOwn before n)

include h

theorem ClaimsOwn.step {r : Requirement} (horigin : n.origin = .step r) : Claims before n r.name := by
  obtain ⟨wanted, hname, hn⟩ := h
  rw [horigin] at hn
  rcases hn with hn | hn | rfl
  · cases hn
  · cases hn
  · exact hname

theorem ClaimsOwn.join (horigin : n.origin = .join) : n.type = Catalog.fullTag "merge" := by
  obtain ⟨wanted, -, hn⟩ := h
  rw [horigin] at hn
  rcases hn with hn | hn | htype
  · cases hn
  · cases hn
  · exact htype

theorem ClaimsOwn.response (horigin : n.origin = .response) :
    n.type = Synthesis.responseType ∧ Claims before n "Respond to Webhook" := by
  obtain ⟨wanted, hname, hn⟩ := h
  rw [horigin] at hn
  rcases hn with hn | hn | ⟨rfl, htype⟩
  · cases hn
  · cases hn
  · exact ⟨htype, hname⟩

end

/-- the names that are taken are those of the nodes, and each was claimed -/
structure Claimed (c : Canvas) : Prop where
  taken : c.names.taken = (c.nodes.map (·.name)).reverse
  claims : EachAfter ClaimsOwn c.nodes

theorem claimed_empty (sources : Identifiers) : Claimed (.empty sources) where
  taken := rfl
  claims := eachAfter_nil _

theorem Claimed.snoc {c d : Canvas} (h : Claimed c) {r : NodeRequest} (hnodes : d.nodes = c.nodes ++ [c.newNode r])
    (hnames : d.names = c.names.take (c.newNode r).name)
    (hr : r.origin = .trigger ∨ r.origin = .errorHandling ∨ r.origin.Admits r.wanted r.type) : Claimed d where
  taken := by
    rw [hnames, hnodes, List.map_append, List.reverse_append, ← h.taken]
    rfl
  claims := by
    rw [hnodes]
    refine h.claims.snoc ⟨r.wanted, ?_, hr⟩
    rw [Claims, ← h.taken]
    rfl

theorem Claimed.act {c d : Canvas} (h : Claimed c) (hact : Act cfg c d) : Claimed d := by
  cases hact with
  | noted rule detail => exact ⟨h.taken, h.claims⟩
  | placed r feeds hr hplain hne hfeeds =>
    exact h.snoc (nodes_grow c r feeds) (names_grow c r feeds) (Or.inr (Or.inr hr.origin))

theorem Claimed.growth {c d : Canvas} (h : Claimed c) (hgrowth : Growth cfg p c d) : Claimed d := by
  have hturned : ∀ branch y, Claimed { c with branch := branch, lowestY := y } := fun branch y => ⟨h.taken, h.claims⟩
  cases hgrowth with
  | acted hact => exact h.act hact
  | begun k y r hnew horigin htype hplain =>
    exact (hturned (some k) y).snoc (nodes_add _ r) (names_add _ r) (Or.inl horigin)
  | routed q rest labels r feeds hq hasked hr horigin htype hrules hlabels hne hfeeds hrouter hroutes hcount hfilled =>
    have hrouted : Claimed (c.grow r feeds) :=
      h.snoc (nodes_grow c r feeds) (names_grow c r feeds) (Or.inr (Or.inr hr.origin))
    subst hrouter
    have hopened : Claimed (c.openRouter r feeds labels.length) := ⟨hrouted.taken, hrouted.claims⟩
    exact keep_of_acts (fun hact hclaimed => hclaimed.act hact) hroutes hopened
  | handled r r' horigin horigin' htype htype' hplain hplain' hx =>
    have hfirst : Claimed ({ c with branch := none }.add r).2 :=
      (hturned none c.lowestY).snoc (nodes_add _ r) (names_add _ r) (Or.inr (Or.inl horigin))
    exact hfirst.snoc (nodes_grow _ r' _) (names_grow _ r' _) (Or.inr (Or.inl horigin'))

end Canvas

namespace Synthesis

open Canvas

theorem claimed_lay (cfg : BuildConfig) (sources : Identifiers) (p : Plan) : Claimed (lay cfg sources p) :=
  lay_induction (claimed_empty sources) fun _ hgrowth h => h.growth hgrowth

/-! ## The requirements of a plan -/

/-- a canvas realizes a plan: every branch has its trigger, a node for each of its requirements in order, joints among
them, and the answer that it owes, unless there is one; nodes of requirements have the names claimed for these, and the
others are of the types made up for them -/
structure Realizes (p : Plan) (c : Canvas) : Prop where
  laid : ∀ k b, p.branches[k]? = some b → Laid c.nodes k b
  steps : EachAfter (fun before n => ∀ r, n.origin = .step r → Claims before n r.name) c.nodes
  joints : ∀ n ∈ c.nodes, n.origin = .join → n.type = Catalog.fullTag "merge"
  answers : EachAfter (fun before n => n.origin = .response →
    n.type = responseType ∧ Claims before n "Respond to Webhook") c.nodes

theorem realizes_lay (cfg : BuildConfig) (sources : Identifiers) (p : Plan) : Realizes p (lay cfg sources p) := by
  have hclaims := (claimed_lay cfg sources p).claims
  refine ⟨(lay_grows cfg sources p).2, fun before n after hsplit r horigin => ?_, fun n hn horigin => ?_,
    fun before n after hsplit horigin => ?_⟩
  · exact (hclaims before n after hsplit).step horigin
  · obtain ⟨before, after, hsplit⟩ := List.append_of_mem hn
    exact (hclaims before n after hsplit).join horigin
  · exact (hclaims before n after hsplit).response horigin

/-- **No requirement is lost or built twice.** Whichever motif takes the requirements of a branch from number `i` on
leaves those from a greater number on, none at most; and in the document of a plan every branch has one node for each of
its requirements, in order. -/
theorem build_realizes (cfg : BuildConfig) (p : Plan) :
    (∀ b ∈ p.branches, ∀ pending c at' y i r rest, b.requirements.drop i = r :: rest →
      Advances b.requirements i (rowsOf r rest).rest ∧
        Advances b.requirements i (laySwitch cfg pending c at' y r rest).2.2 ∧ Advances b.requirements i rest ∧
          Advances b.requirements i (layStep cfg pending c at' y r rest).2.2) ∧
      ∀ sources built, build cfg sources p = .ok built →
        ∃ sources', Shows built.document (lay cfg sources' p) ∧ Realizes p (lay cfg sources' p) := by
  refine ⟨fun b _ pending c at' y i r rest h => advances_layStep cfg pending c y at' r rest h, ?_⟩
  intro sources built h
  obtain ⟨sources', hshows⟩ := build_shows h
  exact ⟨sources', hshows, realizes_lay cfg sources' p⟩

theorem build_realizes_ordersPlan :
    (∃ b ∈ ordersPlan.branches, ∃ r rest, b.requirements.drop 3 = r :: rest ∧ r.isSwitch = true ∧
      Advances b.requirements 3
        (laySwitch .standard true (.empty ordersSources) ⟨"Merge Results", 0⟩ 0 r rest).2.2) ∧
      ∃ built, build .standard ordersSources ordersPlan = .ok built ∧ ∃ sources',
        Shows built.document (lay .standard sources' ordersPlan) ∧
          Realizes ordersPlan (lay .standard sources' ordersPlan) := by
  obtain ⟨hadvances, hrealizes⟩ := build_realizes .standard ordersPlan
  obtain ⟨built, hbuilt, -⟩ := exists_build_ordersPlan
  have hswitch := hadvances _ List.mem_cons_self true (.empty ordersSources) ⟨"Merge Results", 0⟩ 0 3 _ _ rfl
  exact ⟨⟨_, List.mem_cons_self, _, _, rfl, rfl, hswitch.2.1⟩, built, hbuilt, hrealizes _ _ hbuilt⟩

end Synthesis

end WorkflowGraph
