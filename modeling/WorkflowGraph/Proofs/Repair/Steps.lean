import WorkflowGraph.Proofs.Fault
import WorkflowGraph.Repair
/-
What each step of a repair can do to a state. Every lemma about a repair splits these cases and looks into no step.

- `reconverges_of_eq_ok`: one switch.
- `connects_of_eq_ok`: one node without an incoming edge.
- `chains_of_eq_ok`: one output.
-/
namespace WorkflowGraph

namespace Repair

/-! ## Switches -/

/-- the ends of the branches of a switch that are not concluded, with the nodes they are -/
def openEnds (nodes : List Node) (c : Connections) (source : Key) : List (String × Node) :=
  let byName := Document.byName nodes
  (branchEnds c byName source).filterMap fun e =>
    match Table.get? e byName with
    | some n => if n.isConcluding then none else some (e, n)
    | none => none

/-- the name that a registry has for the merge node of a switch -/
def mergeName (registry : NameRegistry) (source : Key) : String :=
  registry.freshName ("Merge " ++ source.toText ++ " Results")

/-- what becomes of a state and the names in use when the branches of a switch are joined -/
inductive Reconverges (cfg : BuildConfig) (s : State) (registry : NameRegistry) (sw : Node) (source : Key) :
    State → NameRegistry → Prop
  /-- less than two ends are open -/
  | alone (detail : List (String × Value)) (hfew : (openEnds s.nodes s.connections source).length ≤ 1) :
      Reconverges cfg s registry sw source (s.note "switch-left-alone" detail) registry
  /-- the open ends lead to a merge node to the right of them -/
  | joined (first : String × Node) (others : List (String × Node)) (origin place : Place) (right spacing : Double)
      (detail : List (String × Value)) (hends : openEnds s.nodes s.connections source = first :: others)
      (hmany : others ≠ []) (horigin : first.2.place = .ok origin)
      (hright : rightmost origin.x (others.map (·.2)) = .ok right)
      (hspacing : (Numeric.whole cfg.spacingX).toDouble = .ok spacing) (hplace : sw.place = .ok place) :
      Reconverges cfg s registry sw source
        (State.fixed
          { s with
            nodes := s.nodes ++ [mergeNode (nextId s.nodes) (mergeName registry source) (right.add spacing) place.y]
            connections := joinEnds s.connections (mergeName registry source) 0 ((first :: others).map (·.1)) }
          (1 + ((first :: others).map (·.1)).length) "switch-merged" detail)
        (registry.take (mergeName registry source))

theorem reconverges_of_eq_ok {cfg : BuildConfig} {s t : State} {registry registry' : NameRegistry} {sw : Node}
    (h : reconverge cfg (s, registry) sw = .ok (t, registry')) :
    ∃ source, sw.name.toKey = .ok source ∧ Reconverges cfg s registry sw source t registry' := by
  obtain ⟨source, hsource, h⟩ := bind_eq_ok.1 h
  refine ⟨source, hsource, ?_⟩
  simp only [NameRegistry.claim] at h
  split at h
  · rename_i first firstNode second others hends
    obtain ⟨origin, horigin, h⟩ := bind_eq_ok.1 h
    obtain ⟨right, hright, h⟩ := bind_eq_ok.1 h
    obtain ⟨spacing, hspacing, h⟩ := bind_eq_ok.1 h
    obtain ⟨place, hplace, h⟩ := bind_eq_ok.1 h
    cases h
    exact .joined (first, firstNode) (second :: others) origin place right spacing _ hends (List.cons_ne_nil _ _)
      horigin hright hspacing hplace
  · rename_i hfew
    cases h
    refine .alone _ ?_
    rcases hends : openEnds s.nodes s.connections source with _ | ⟨⟨first, firstNode⟩, _ | ⟨second, others⟩⟩
    · exact Nat.zero_le _
    · exact Nat.le_refl _
    · exact absurd hends (hfew first firstNode second others)

/-! ## Rows -/

/-- what becomes of a state when a node is connected -/
inductive Connects (cfg : BuildConfig) (s : State) (n : Node) : State → Prop
  /-- the node needs no edge, or has one -/
  | fed (hfed : n.isTrigger = true ∨ isTarget s.connections n = true) : Connects cfg s n s
  /-- there is no node to the left of it on its row -/
  | unresolved (hnone : Rows.predecessor id (.whole cfg.rowTolerance) n s.nodes = .ok none)
      (detail : List (String × Value)) : Connects cfg s n (s.note "disconnected-unresolved" detail)
  /-- an edge leads to it from its left neighbour -/
  | connected (left : Node) (key : Key) (hopen : n.isTrigger = false) (htarget : isTarget s.connections n = false)
      (hleft : Rows.predecessor id (.whole cfg.rowTolerance) n s.nodes = .ok (some left))
      (hkey : left.name.toKey = .ok key) (detail : List (String × Value)) :
      Connects cfg s n (State.fixed { s with connections := s.connections.connect key n.name.toText 0 } 1
        "disconnected-connected" detail)

theorem connects_of_eq_ok {cfg : BuildConfig} {s t : State} {n : Node} (h : connectNode cfg s n = .ok t) :
    Connects cfg s n t := by
  unfold connectNode at h
  split at h
  · rename_i hfed
    cases h
    exact .fed (Bool.or_eq_true_iff.1 hfed)
  · rename_i hopen
    rw [Bool.or_eq_true, not_or, Bool.not_eq_true, Bool.not_eq_true] at hopen
    obtain ⟨found, hfound, h⟩ := bind_eq_ok.1 h
    split at h
    · cases h
      exact .unresolved hfound _
    · rename_i left
      obtain ⟨key, hkey, h⟩ := bind_eq_ok.1 h
      cases h
      exact .connected left key hopen.1 hopen.2 hfound hkey _

/-- what becomes of a state when an output is chained -/
inductive Chains (cfg : BuildConfig) (candidates : List Node) (s : State) (n : Node) (key : Key) : State → Prop
  /-- the output needs not to lead anywhere, or it does -/
  | led (hled : n.isConcluding = true ∨ s.connections.hasOutgoing key = true) : Chains cfg candidates s n key s
  /-- there is no candidate to the right of it on its row -/
  | unresolved (hnone : Rows.successor id (.whole cfg.rowTolerance) (.whole cfg.rowMinDx) n candidates = .ok none) :
      Chains cfg candidates s n key s
  /-- an edge leads from it to its right neighbour -/
  | chained (right : Node) (hclosed : n.isConcluding = false) (hout : s.connections.hasOutgoing key = false)
      (hright : Rows.successor id (.whole cfg.rowTolerance) (.whole cfg.rowMinDx) n candidates = .ok (some right))
      (detail : List (String × Value)) :
      Chains cfg candidates s n key (State.fixed { s with connections := s.connections.connect key right.name.toText 0 }
        1 "output-chained" detail)

theorem chains_of_eq_ok {cfg : BuildConfig} {candidates : List Node} {s t : State} {n : Node}
    (h : chainNode cfg candidates s n = .ok t) :
    ∃ key, n.name.toKey = .ok key ∧ Chains cfg candidates s n key t := by
  obtain ⟨key, hkey, h⟩ := bind_eq_ok.1 h
  refine ⟨key, hkey, ?_⟩
  split at h
  · rename_i hled
    cases h
    exact .led (Bool.or_eq_true_iff.1 hled)
  · rename_i hopen
    rw [Bool.or_eq_true, not_or, Bool.not_eq_true, Bool.not_eq_true] at hopen
    obtain ⟨found, hfound, h⟩ := bind_eq_ok.1 h
    split at h
    · cases h
      exact .unresolved hfound
    · rename_i right
      cases h
      exact .chained right hopen.1 hopen.2 hfound _

end Repair

end WorkflowGraph
