import WorkflowGraph.Proofs.Repair.Moves
/-
A repair as a sequence of turns. After its first step a repair joins the branches of one switch after another, then
connects the nodes from left to right, then chains the outputs. What a node or a switch finds when its turn comes decides
what is done with it.

- `mend_brings`: what a repair brings about, some turn brought about.
-/
namespace WorkflowGraph

namespace Repair

/-- one thing that a repair attends to after its first step -/
inductive Task where
  /-- the branches of a switch -/
  | join (sw : Node)
  /-- the incoming edge of a node -/
  | feed (n : Node)
  /-- the output of a node -/
  | chain (n : Node)

/-- the names of keys as far as they are texts -/
def registryOf (keys : List Key) : NameRegistry := ⟨keys.filterMap fun k => (Value.ofKey k).text?⟩

/-- in the repair from `start` the state is `s` when the turn of a task comes -/
inductive Turn (cfg : BuildConfig) (start : State) : State → Task → Prop
  | join {keys : List Key} {registry : NameRegistry} {s : State} {sw : Node}
      (hkeys : (start.nodes.mapM fun n => n.name.toKey) = .ok keys)
      (hvisit : Visits (reconverge cfg) (start, registryOf keys) (start.nodes.filter Node.isSwitch) sw (s, registry)) :
      Turn cfg start s (.join sw)
  | feed {joined s : State} {placed : List (Double × Node)} {p : Double × Node}
      (hjoined : reconvergeAll cfg start = .ok joined) (hplaced : withPlaces joined.nodes = .ok placed)
      (hvisit : Visits (fun s p => connectNode cfg s p.2) joined (placed.mergeSort fun a b => !b.1.lt a.1) p s) :
      Turn cfg start s (.feed p.2)
  | chain {joined fed s : State} {n : Node} (hjoined : reconvergeAll cfg start = .ok joined)
      (hfed : connectAll cfg joined = .ok fed)
      (hvisit : Visits (chainNode cfg (fed.nodes.filter fun m => !m.isTrigger)) fed fed.nodes n s) :
      Turn cfg start s (.chain n)

/-- what is made of a state when it is the turn of a task; a switch looks at the names in use as well -/
inductive Takes (cfg : BuildConfig) (s : State) : Task → State → Prop
  | join {registry registry' : NameRegistry} {sw : Node} {t : State}
      (h : reconverge cfg (s, registry) sw = .ok (t, registry')) : Takes cfg s (.join sw) t
  | feed {n : Node} {t : State} (h : connectNode cfg s n = .ok t) : Takes cfg s (.feed n) t
  | chain {n : Node} {t : State} (h : chainNode cfg (s.nodes.filter fun m => !m.isTrigger) s n = .ok t) :
      Takes cfg s (.chain n) t

section

variable {cfg : BuildConfig} {start joined fed s : State}

/-! ## Nodes at a turn -/

/-- connecting a node changes no node -/
theorem nodes_connectNode {t : State} {n : Node} (h : connectNode cfg s n = .ok t) : t.nodes = s.nodes := by
  cases connects_of_eq_ok h with
  | fed hfed => rfl
  | unresolved hnone detail => rfl
  | connected left key hopen htarget hleft hkey detail => rfl

/-- chaining an output changes none either -/
theorem nodes_chainNode {candidates : List Node} {t : State} {n : Node} (h : chainNode cfg candidates s n = .ok t) :
    t.nodes = s.nodes := by
  obtain ⟨key, -, hcase⟩ := chains_of_eq_ok h
  cases hcase with
  | led hled => rfl
  | unresolved hnone => rfl
  | chained right hclosed hout hright detail => rfl

/-- while outputs are chained the nodes are those that were there before -/
theorem nodes_of_visits_chainNode {candidates : List Node} {n : Node}
    (h : Visits (chainNode cfg candidates) fed fed.nodes n s) : s.nodes = fed.nodes :=
  h.induction (P := fun u => u.nodes = fed.nodes) rfl fun _ _ _ _ hstep hu => (nodes_chainNode hstep).trans hu

/-! ## What a repair brings about -/

section

variable {P : State → Prop} {Q : Task → State → Prop}
  (step : ∀ u task v, Takes cfg u task v → (P v ↔ P u ∨ Q task u))

include step

theorem reconvergeAll_brings (h : reconvergeAll cfg start = .ok joined) :
    P joined ↔ P start ∨ ∃ u sw, Turn cfg start u (.join sw) ∧ Q (.join sw) u := by
  obtain ⟨keys, hkeys, h⟩ := bind_eq_ok.1 h
  obtain ⟨⟨u, registry⟩, hrun, h⟩ := bind_eq_ok.1 h
  cases h
  have hbrings := foldlM_brings (P := fun acc : State × NameRegistry => P acc.1) (Q := fun sw acc => Q (.join sw) acc.1)
    hrun fun sw u v _ hstep => step u.1 (.join sw) v.1 (.join hstep)
  rw [hbrings]
  refine or_congr_right ⟨?_, ?_⟩
  · rintro ⟨sw, u, hvisit, hq⟩
    exact ⟨u.1, sw, .join hkeys hvisit, hq⟩
  · rintro ⟨u, sw, hturn, hq⟩
    cases hturn with
    | join hkeys' hvisit =>
      cases hkeys.symm.trans hkeys'
      exact ⟨sw, _, hvisit, hq⟩

theorem connectAll_brings (hjoined : reconvergeAll cfg start = .ok joined) (h : connectAll cfg joined = .ok fed) :
    P fed ↔ P joined ∨ ∃ u n, Turn cfg start u (.feed n) ∧ Q (.feed n) u := by
  obtain ⟨placed, hplaced, hrun⟩ := bind_eq_ok.1 h
  have hbrings := foldlM_brings (P := P) (Q := fun p => Q (.feed p.2)) hrun fun p u v _ hstep =>
    step u (.feed p.2) v (.feed hstep)
  rw [hbrings]
  refine or_congr_right ⟨?_, ?_⟩
  · rintro ⟨p, u, hvisit, hq⟩
    exact ⟨u, p.2, .feed hjoined hplaced hvisit, hq⟩
  · rintro ⟨u, n, hturn, hq⟩
    cases hturn with
    | feed hjoined' hplaced' hvisit =>
      cases hjoined.symm.trans hjoined'
      cases hplaced.symm.trans hplaced'
      exact ⟨_, u, hvisit, hq⟩

theorem chainAll_brings (hjoined : reconvergeAll cfg start = .ok joined) (hfed : connectAll cfg joined = .ok fed)
    (h : chainAll cfg fed = .ok s) : P s ↔ P fed ∨ ∃ u n, Turn cfg start u (.chain n) ∧ Q (.chain n) u := by
  have hbrings := foldlM_brings (P := P) (Q := fun n => Q (.chain n)) h fun n u v hvisit hstep => by
    refine step u (.chain n) v (.chain ?_)
    rw [nodes_of_visits_chainNode hvisit]
    exact hstep
  rw [hbrings]
  refine or_congr_right ⟨?_, ?_⟩
  · rintro ⟨n, u, hvisit, hq⟩
    exact ⟨u, n, .chain hjoined hfed hvisit, hq⟩
  · rintro ⟨u, n, hturn, hq⟩
    cases hturn with
    | chain hjoined' hfed' hvisit =>
      cases hjoined.symm.trans hjoined'
      cases hfed.symm.trans hfed'
      exact ⟨n, u, hvisit, hq⟩

/-- **What a repair brings about, some turn brought about.** -/
theorem mend_brings (h : mend cfg start = .ok s) :
    P s ↔ P start ∨ ∃ u task, Turn cfg start u task ∧ Q task u := by
  obtain ⟨joined, hjoined, h⟩ := bind_eq_ok.1 h
  obtain ⟨fed, hfed, h⟩ := bind_eq_ok.1 h
  rw [chainAll_brings step hjoined hfed h, connectAll_brings step hjoined hfed, reconvergeAll_brings step hjoined,
    or_assoc, or_assoc]
  refine or_congr_right ⟨?_, ?_⟩
  · rintro (⟨u, sw, hturn, hq⟩ | ⟨u, n, hturn, hq⟩ | ⟨u, n, hturn, hq⟩)
    · exact ⟨u, .join sw, hturn, hq⟩
    · exact ⟨u, .feed n, hturn, hq⟩
    · exact ⟨u, .chain n, hturn, hq⟩
  · rintro ⟨u, task, hturn, hq⟩
    cases task with
    | join sw => exact Or.inl ⟨u, sw, hturn, hq⟩
    | feed n => exact Or.inr (Or.inl ⟨u, n, hturn, hq⟩)
    | chain n => exact Or.inr (Or.inr ⟨u, n, hturn, hq⟩)

end

end

end Repair

end WorkflowGraph
