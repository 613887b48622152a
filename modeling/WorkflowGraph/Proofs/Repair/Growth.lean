import WorkflowGraph.Proofs.Repair.Completion
/-
How the structure grows in a repair of nodes with proper names. The connections can be written and read back at any
time, new edges join nodes and lead to no trigger, and an edge leads to every new node.

- `moves_grown`: what holds after any sequence of moves.
-/
namespace WorkflowGraph

namespace Repair

theorem isTrigger_of_merge {n : Node} (h : n.get "type" = .text "n8n-nodes-base.merge") : n.isTrigger = false := by
  unfold Node.isTrigger Node.tag
  rw [h]
  decide +kernel

/-- nodes with proper names and the merge nodes behind them have proper names -/
theorem wellNamed_append {nodes added : List Node} (h : WellNamed nodes) (ha : Merges nodes added) :
    WellNamed (nodes ++ added) where
  texts := List.forall_mem_append.2 ⟨h.texts, ha.named⟩
  distinct := by
    rw [List.map_append, List.nodup_append]
    refine ⟨h.distinct, ha.distinct, ?_⟩
    rintro v hv w hw rfl
    obtain ⟨m, hm, rfl⟩ := List.mem_map.1 hv
    obtain ⟨n, hn, heq⟩ := List.mem_map.1 hw
    exact ha.newNames n hn m hm heq.symm

/-- moves keep names proper -/
theorem wellNamed_of_moves {s t : State} (h : Relation.ReflTransGen Move s t) (hs : WellNamed s.nodes) :
    WellNamed t.nodes := by
  obtain ⟨added, hnodes, hmerges⟩ := moves_merges h
  rw [hnodes]
  exact wellNamed_append hs hmerges

/-- what holds of nodes with proper names at first and is kept by each step holds after all of them -/
theorem mend_induction {P : State → Prop} {cfg : BuildConfig} {s t : State} (hw : WellNamed s.nodes)
    (h : mend cfg s = .ok t) (hs : P s)
    (hjoin : ∀ u registry sw v registry', WellNamed u.nodes → Registered u.nodes registry → sw ∈ u.nodes →
      reconverge cfg (u, registry) sw = .ok (v, registry') → P u → P v)
    (hconnect : ∀ u n v, WellNamed u.nodes → n ∈ u.nodes → connectNode cfg u n = .ok v → P u → P v)
    (hchain : ∀ u candidates n v, WellNamed u.nodes → n ∈ u.nodes → (∀ m ∈ candidates, m ∈ u.nodes) →
      chainNode cfg candidates u n = .ok v → P u → P v) : P t := by
  obtain ⟨u, hu, h⟩ := bind_eq_ok.1 h
  obtain ⟨v, hv, h⟩ := bind_eq_ok.1 h
  have hu' : Relation.ReflTransGen Move s u ∧ P u := by
    refine reconvergeAll_induction (P := fun u => Relation.ReflTransGen Move s u ∧ P u) hu ⟨.refl, hs⟩ ?_
    rintro w registry sw hsw w' registry' hreg hrec ⟨hmoves, hold⟩
    obtain ⟨added, hnodes, -⟩ := moves_merges hmoves
    have hmem : sw ∈ w.nodes := hnodes ▸ List.mem_append_left _ hsw
    exact ⟨hmoves.tail (reconverge_moves hrec hreg).1,
      hjoin w registry sw w' registry' (wellNamed_of_moves hmoves hw) hreg hmem hrec hold⟩
  have hnamed := wellNamed_of_moves hu'.1 hw
  have hv' : v.nodes = u.nodes ∧ P v := by
    refine connectAll_induction (P := fun v => v.nodes = u.nodes ∧ P v) hv ⟨rfl, hu'.2⟩ ?_
    rintro w n hn w' hstep ⟨hnodes, hold⟩
    rw [← hnodes] at hn hnamed
    exact ⟨(connectNode_moves hstep hn).2.trans hnodes, hconnect w n w' hnamed hn hstep hold⟩
  rw [← hv'.1] at hnamed
  refine (foldlM_induction (P := fun t => t.nodes = v.nodes ∧ P t) h ⟨rfl, hv'.2⟩ ?_).2
  rintro w n w' hn hstep ⟨hnodes, hold⟩
  rw [← hnodes] at hn hnamed
  have hcandidates : ∀ m ∈ v.nodes.filter fun m => !m.isTrigger, m ∈ w.nodes ∧ m.isTrigger = false := by
    intro m hm
    rw [List.mem_filter, Bool.not_eq_true'] at hm
    exact ⟨hnodes ▸ hm.1, hm.2⟩
  exact ⟨(chainNode_moves hstep hn hcandidates).2.trans hnodes,
    hchain w _ n w' hnamed hn (fun m hm => (hcandidates m hm).1) hstep hold⟩

/-! ## Edges into a merge node -/

theorem joins_joinEnds {c : Connections} {merge : String} {i : Nat} {ends : List String} {source target : String} :
    (joinEnds c merge i ends).Joins (.text source) target ↔
      c.Joins (.text source) target ∨ (source ∈ ends ∧ target = merge) := by
  induction ends generalizing c i with
  | nil => simp [joinEnds]
  | cons e ends ih =>
    rw [joinEnds, ih, Connections.joins_connect, Key.text_beq_text, decide_eq_true_iff, List.mem_cons, or_assoc,
      eq_comm (a := e), eq_comm (a := merge), or_and_right]

theorem canonical_joinEnds {c : Connections} (h : c.Canonical) {merge : String}
    (hm : Text.isBlankText merge = false) (i : Nat) (ends : List String) : (joinEnds c merge i ends).Canonical := by
  induction ends generalizing c i with
  | nil => exact h
  | cons e ends ih => exact ih (h.connect e hm _) _

theorem simple_joinEnds {c : Connections} (h : c.Simple) (merge : String) (i : Nat) (ends : List String) :
    (joinEnds c merge i ends).Simple := by
  induction ends generalizing c i with
  | nil => exact h
  | cons e ends ih => exact ih (h.connect _ _ _) _

/-! ## Growth -/

/-- a structure against the one it grew from -/
structure Grown (s t : State) : Prop where
  /-- the connections can be written and read back -/
  canonical : t.connections.Canonical
  simple : t.connections.Simple
  /-- a new edge leads from a node to one that is no trigger -/
  edges : ∀ a b, t.connections.Joins (.text a) b → s.connections.Joins (.text a) b ∨
    (Known t.nodes a ∧ ∃ n ∈ t.nodes, n.isTrigger = false ∧ n.name = .text b)
  /-- an edge leads to every new node -/
  reached : ∀ n ∈ t.nodes, n ∈ s.nodes ∨ ∃ name, n.name = .text name ∧ Reached t.nodes t.connections name
  /-- nothing grows from nothing -/
  empty : s.nodes = [] → t.nodes = []

/-- what moves from nodes with proper names and connections that can be written do -/
theorem moves_grown {s t : State} (h : Relation.ReflTransGen Move s t) (hs : WellNamed s.nodes)
    (hcanonical : s.connections.Canonical) (hsimple : s.connections.Simple) : Grown s t := by
  induction h with
  | refl => exact ⟨hcanonical, hsimple, fun _ _ => Or.inl, fun _ => Or.inl, id⟩
  | @tail u t hmoves hmove ih =>
    have hu := wellNamed_of_moves hmoves hs
    cases hmove with
    | noted rule detail hrule => exact ⟨ih.canonical, ih.simple, ih.edges, ih.reached, ih.empty⟩
    | merged name x y ends detail hnew hname hends hknown =>
      have hsub : u.nodes ⊆ u.nodes ++ [mergeNode (nextId u.nodes) name x y] := List.subset_append_left _ _
      have hmem : mergeNode (nextId u.nodes) name x y ∈ u.nodes ++ [mergeNode (nextId u.nodes) name x y] :=
        List.mem_append_right _ List.mem_cons_self
      refine ⟨canonical_joinEnds ih.canonical hname _ _, simple_joinEnds ih.simple _ _ _, ?_, ?_, ?_⟩
      · intro a b hjoins
        rcases joins_joinEnds.1 hjoins with hold | ⟨ha, rfl⟩
        · refine (ih.edges a b hold).imp_right ?_
          rintro ⟨ha, n, hn, hopen, hb⟩
          exact ⟨ha.mono hsub, n, hsub hn, hopen, hb⟩
        · exact Or.inr ⟨(hknown a ha).mono hsub, _, hmem, isTrigger_of_merge rfl, rfl⟩
      · intro n hn
        rcases List.mem_append.1 hn with hn | hn
        · refine (ih.reached n hn).imp_right ?_
          rintro ⟨m, hm, hreached⟩
          exact ⟨m, hm, hreached.mono hsub fun a ha => joins_joinEnds.2 (Or.inl ha)⟩
        · rw [List.mem_singleton.1 hn]
          obtain ⟨e, he⟩ := List.exists_mem_of_ne_nil _ hends
          exact Or.inr ⟨name, rfl, ⟨_, hmem, rfl⟩, e, (hknown e he).mono hsub, joins_joinEnds.2 (Or.inr ⟨he, rfl⟩)⟩
      · intro hnil
        obtain ⟨e, he⟩ := List.exists_mem_of_ne_nil _ hends
        obtain ⟨n, hn, -⟩ := hknown e he
        rw [ih.empty hnil] at hn
        cases hn
    | connected source target key rule detail hsource hkey htarget hopen hrule =>
      obtain ⟨a', ha', -⟩ := hu.texts source hsource
      obtain ⟨b', hb', hblank⟩ := hu.texts target htarget
      have hedge : u.connections.connect key target.name.toText 0 = u.connections.connect (.text a') b' 0 := by
        rw [ha', Value.toKey_text] at hkey
        rw [← Except.ok.inj hkey, hb']
        rfl
      have hjoins : ∀ a b, (u.connections.connect key target.name.toText 0).Joins (.text a) b ↔
          u.connections.Joins (.text a) b ∨ (a' = a ∧ b' = b) := by
        intro a b
        rw [hedge, Connections.joins_connect, Key.text_beq_text, decide_eq_true_iff]
      refine ⟨?_, ?_, ?_, ?_, ih.empty⟩
      · show (u.connections.connect key target.name.toText 0).Canonical
        rw [hedge]
        exact ih.canonical.connect _ hblank _
      · exact ih.simple.connect _ _ _
      · intro a b hab
        rcases (hjoins a b).1 hab with hold | ⟨rfl, rfl⟩
        · exact ih.edges a b hold
        · exact Or.inr ⟨⟨source, hsource, ha'⟩, target, htarget, hopen, hb'⟩
      · intro n hn
        refine (ih.reached n hn).imp_right ?_
        rintro ⟨m, hm, hreached⟩
        exact ⟨m, hm, hreached.mono (fun _ h => h) fun a ha => (hjoins a m).2 (Or.inl ha)⟩

end Repair

end WorkflowGraph
