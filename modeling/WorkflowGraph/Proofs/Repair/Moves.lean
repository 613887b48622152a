import WorkflowGraph.Proofs.Naming
import WorkflowGraph.Proofs.Repair.Steps
import WorkflowGraph.Proofs.Rows
import WorkflowGraph.Proofs.Value
/-
A repair as a sequence of moves. After its first step a repair does three things only: it notes a decision, it joins
branches in a merge node with a new name and a new identifier, or it adds one edge between nodes on the first main port,
never into a trigger. What each of these keeps, the whole repair keeps.

- `mend_moves`: the steps after the first one are a sequence of moves.
-/
namespace WorkflowGraph

namespace Repair

/-- one thing that a repair does after its first step -/
inductive Move : State → State → Prop
  /-- a decision is noted and nothing changes -/
  | noted (s : State) (rule : String) (detail : List (String × Value)) (hrule : rule ≠ "aborted") :
      Move s (s.note rule detail)
  /-- branches end in a new merge node -/
  | merged (s : State) (name : String) (x y : Double) (ends : List String) (detail : List (String × Value))
      (hnew : ∀ n ∈ s.nodes, n.name ≠ .text name) (hname : Text.isBlankText name = false) (hends : ends ≠ [])
      (hknown : ∀ e ∈ ends, Known s.nodes e) :
      Move s (State.fixed
        { s with
          nodes := s.nodes ++ [mergeNode (nextId s.nodes) name x y]
          connections := joinEnds s.connections name 0 ends }
        (1 + ends.length) "switch-merged" detail)
  /-- an edge is added from one node to another that is no trigger -/
  | connected (s : State) (source target : Node) (key : Key) (rule : String) (detail : List (String × Value))
      (hsource : source ∈ s.nodes) (hkey : source.name.toKey = .ok key) (htarget : target ∈ s.nodes)
      (hopen : target.isTrigger = false) (hrule : rule ≠ "aborted") :
      Move s (State.fixed { s with connections := s.connections.connect key target.name.toText 0 } 1 rule detail)

/-! ## Switches -/

theorem name_mergeNode (id name : String) (x y : Double) : (mergeNode id name x y).name = .text name := rfl

/-- an open end is a name with the node that has it -/
theorem named_of_mem_openEnds {nodes : List Node} {c : Connections} {source : Key} {e : String × Node}
    (h : e ∈ openEnds nodes c source) : e.2 ∈ nodes ∧ e.2.name = .text e.1 := by
  obtain ⟨name, -, h⟩ := List.mem_filterMap.1 h
  split at h
  · rename_i n hn
    split at h
    · cases h
    · cases h
      exact Document.named_of_get?_byName hn
  · cases h

/-- one switch is one move, and the names stay registered -/
theorem reconverge_moves {cfg : BuildConfig} {s t : State} {registry registry' : NameRegistry} {sw : Node}
    (h : reconverge cfg (s, registry) sw = .ok (t, registry')) (hr : Registered s.nodes registry) :
    Move s t ∧ Registered t.nodes registry' := by
  obtain ⟨source, -, hcase⟩ := reconverges_of_eq_ok h
  cases hcase with
  | alone detail hfew => exact ⟨Move.noted s _ _ (by decide), hr⟩
  | joined first others origin place right spacing detail hends hmany horigin hright hspacing hplace =>
    have hknown : ∀ e ∈ (first :: others).map (·.1), Known s.nodes e := by
      intro e he
      rw [← hends] at he
      obtain ⟨p, hp, rfl⟩ := List.mem_map.1 he
      obtain ⟨hn, hname⟩ := named_of_mem_openEnds hp
      exact ⟨p.2, hn, hname⟩
    have hnew := hr.new ("Merge " ++ source.toText ++ " Results")
    exact ⟨Move.merged s _ _ _ _ _ hnew (NameRegistry.freshName_not_blank _ _) (by simp) hknown,
      hr.snoc (name_mergeNode _ _ _ _)⟩

/-- what holds at first and is kept by every switch holds after all of them; names are registered all the time -/
theorem reconvergeAll_induction {P : State → Prop} {cfg : BuildConfig} {s t : State} (h : reconvergeAll cfg s = .ok t)
    (hs : P s) (hstep : ∀ u registry, ∀ sw ∈ s.nodes, ∀ v registry', Registered u.nodes registry →
      reconverge cfg (u, registry) sw = .ok (v, registry') → P u → P v) : P t := by
  obtain ⟨keys, hkeys, h⟩ := bind_eq_ok.1 h
  obtain ⟨⟨t', registry⟩, hrun, h⟩ := bind_eq_ok.1 h
  cases h
  have hstart : Registered s.nodes ⟨keys.filterMap fun k => (Value.ofKey k).text?⟩ := by
    intro n hn name hname
    obtain ⟨k, hk, hnk⟩ := exists_mem_of_mapM hkeys hn
    rw [hname, Value.toKey_text] at hnk
    cases hnk
    exact List.mem_filterMap.2 ⟨_, hk, rfl⟩
  refine (foldlM_induction (P := fun acc : State × NameRegistry => P acc.1 ∧ Registered acc.1.nodes acc.2) hrun
    ⟨hs, hstart⟩ ?_).1
  rintro ⟨u, r⟩ sw ⟨v, r'⟩ hsw hrec ⟨hu, hreg⟩
  exact ⟨hstep u r sw (List.mem_of_mem_filter hsw) v r' hreg hrec hu, (reconverge_moves hrec hreg).2⟩

theorem reconvergeAll_moves {cfg : BuildConfig} {s t : State} (h : reconvergeAll cfg s = .ok t) :
    Relation.ReflTransGen Move s t :=
  reconvergeAll_induction h .refl fun _ _ _ _ _ _ hreg hrec hmoves => hmoves.tail (reconverge_moves hrec hreg).1

/-! ## Rows -/

/-- an open node is connected in one move, or none is made -/
theorem connectNode_moves {cfg : BuildConfig} {s t : State} {n : Node} (h : connectNode cfg s n = .ok t)
    (hn : n ∈ s.nodes) : (t = s ∨ Move s t) ∧ t.nodes = s.nodes := by
  cases connects_of_eq_ok h with
  | fed hfed => exact ⟨Or.inl rfl, rfl⟩
  | unresolved hnone detail => exact ⟨Or.inr (Move.noted s _ _ (by decide)), rfl⟩
  | connected left key hopen htarget hleft hkey detail =>
    exact ⟨Or.inr (Move.connected s left n key _ _ (Rows.mem_of_predecessor hleft) hkey hn hopen (by decide)), rfl⟩

/-- what holds at first and is kept by connecting each node holds after connecting all of them -/
theorem connectAll_induction {P : State → Prop} {cfg : BuildConfig} {s t : State} (h : connectAll cfg s = .ok t)
    (hs : P s) (hstep : ∀ u, ∀ n ∈ s.nodes, ∀ v, connectNode cfg u n = .ok v → P u → P v) : P t := by
  obtain ⟨placed, hplaced, h⟩ := bind_eq_ok.1 h
  refine foldlM_induction h hs fun u p v hp hconnect hu => ?_
  rw [List.mem_mergeSort] at hp
  obtain ⟨n, hn, hpn⟩ := exists_of_mem_mapM hplaced hp
  obtain ⟨place, -, rfl⟩ := map_eq_ok.1 hpn
  exact hstep u n hn v hconnect hu

theorem connectAll_moves {cfg : BuildConfig} {s t : State} (h : connectAll cfg s = .ok t) :
    Relation.ReflTransGen Move s t ∧ t.nodes = s.nodes := by
  refine connectAll_induction (P := fun u => Relation.ReflTransGen Move s u ∧ u.nodes = s.nodes) h ⟨.refl, rfl⟩ ?_
  rintro u n hn v hstep ⟨hmoves, hnodes⟩
  obtain ⟨rfl | hmove, hsame⟩ := connectNode_moves hstep (hnodes ▸ hn)
  · exact ⟨hmoves, hnodes⟩
  · exact ⟨hmoves.tail hmove, hsame.trans hnodes⟩

/-- an output is chained in one move, or none is made -/
theorem chainNode_moves {cfg : BuildConfig} {candidates : List Node} {s t : State} {n : Node}
    (h : chainNode cfg candidates s n = .ok t) (hn : n ∈ s.nodes)
    (hc : ∀ m ∈ candidates, m ∈ s.nodes ∧ m.isTrigger = false) : (t = s ∨ Move s t) ∧ t.nodes = s.nodes := by
  obtain ⟨key, hkey, hcase⟩ := chains_of_eq_ok h
  cases hcase with
  | led hled => exact ⟨Or.inl rfl, rfl⟩
  | unresolved hnone => exact ⟨Or.inl rfl, rfl⟩
  | chained right hclosed hout hright detail =>
    obtain ⟨hmem, htrigger⟩ := hc right (Rows.mem_of_successor hright)
    exact ⟨Or.inr (Move.connected s n right key _ _ hn hkey hmem htrigger (by decide)), rfl⟩

theorem chainAll_moves {cfg : BuildConfig} {s t : State} (h : chainAll cfg s = .ok t) :
    Relation.ReflTransGen Move s t ∧ t.nodes = s.nodes := by
  refine foldlM_induction (P := fun u => Relation.ReflTransGen Move s u ∧ u.nodes = s.nodes) h ⟨.refl, rfl⟩ ?_
  rintro u n v hn hstep ⟨hmoves, hnodes⟩
  have hcandidates : ∀ m ∈ s.nodes.filter fun m => !m.isTrigger, m ∈ u.nodes ∧ m.isTrigger = false := by
    intro m hm
    rw [List.mem_filter, Bool.not_eq_true'] at hm
    exact ⟨hnodes ▸ hm.1, hm.2⟩
  obtain ⟨rfl | hmove, hsame⟩ := chainNode_moves hstep (hnodes ▸ hn) hcandidates
  · exact ⟨hmoves, hnodes⟩
  · exact ⟨hmoves.tail hmove, hsame.trans hnodes⟩

/-- **A repair moves step by step.** -/
theorem mend_moves {cfg : BuildConfig} {s t : State} (h : mend cfg s = .ok t) : Relation.ReflTransGen Move s t := by
  obtain ⟨u, hu, h⟩ := bind_eq_ok.1 h
  obtain ⟨v, hv, h⟩ := bind_eq_ok.1 h
  exact ((reconvergeAll_moves hu).trans (connectAll_moves hv).1).trans (chainAll_moves h).1

/-- what holds of the nodes and of every merge node holds of the nodes after any moves -/
theorem moves_forall {P : Node → Prop} {s t : State} (h : Relation.ReflTransGen Move s t)
    (hmerge : ∀ id name x y, P (mergeNode id name x y)) (hs : ∀ n ∈ s.nodes, P n) : ∀ n ∈ t.nodes, P n := by
  induction h with
  | refl => exact hs
  | tail _ hmove ih =>
    cases hmove with
    | noted rule detail hrule => exact ih
    | merged name x y ends detail hnew hname hends hknown =>
      exact List.forall_mem_append.2 ⟨ih, List.forall_mem_singleton.2 (hmerge _ _ _ _)⟩
    | connected source target key rule detail hsource hkey htarget hopen hrule => exact ih

end Repair

end WorkflowGraph
