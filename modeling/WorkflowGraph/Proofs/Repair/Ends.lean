import WorkflowGraph.Proofs.Connections.Heads
import WorkflowGraph.Proofs.Repair.Repetition
/-
The ends of the branches of a switch. Where all edges lead onwards a walk along a branch never comes back to a node that
it has seen, and where a walk stops is decided by where it starts. So branches that run together have one end, as long
as no walk stops at the node that a branch begins with.

- `walk_onward`: a walk does not look at what it has seen.
- `length_openEnds_le_one`: branches that run together leave no two ends open.
-/
namespace WorkflowGraph

/-! ## Walks -/

/-- first edges lead onwards, by some rank of the names -/
def Onwards (c : Connections) (rank : String → Int) : Prop := ∀ a b, c.headAt a 0 = some b → rank a < rank b

namespace Branch

variable {c : Connections} {byName : Table String Node} {rank : String → Int}

/-- **Onwards a walk does not look at what it has seen**, since that is all behind it. -/
theorem walk_onward (hrank : Onwards c rank) {seen : List String} {current : String} (fuel : Nat)
    (hseen : ∀ s ∈ seen, rank s < rank current) : walk c byName seen current fuel = walk c byName [] current fuel := by
  induction fuel generalizing seen current with
  | zero => rfl
  | succ fuel ih =>
    rw [walk, walk, Connections.firstTarget_eq]
    split
    · rfl
    · cases hnext : c.headAt current 0 with
      | none => rfl
      | some next =>
        have hlt := hrank current next hnext
        have hpassed : ∀ s ∈ current :: seen, rank s < rank next :=
          List.forall_mem_cons.2 ⟨hlt, fun s hs => (hseen s hs).trans hlt⟩
        have hnew : ∀ passed : List String, (∀ s ∈ passed, rank s < rank next) → passed.contains next = false := by
          intro passed hpassed
          rw [← Bool.not_eq_true, List.contains_iff_mem]
          exact fun hmem => lt_irrefl _ (hpassed next hmem)
        have honly : ∀ s ∈ [current], rank s < rank next := List.forall_mem_singleton.2 hlt
        simp only [hnew _ hpassed, hnew _ honly, ih hpassed, ih honly]

/-- a branch that goes on ends where the branch from its second node ends -/
theorem last_of_head (hrank : Onwards c rank) {a b : String} (ha : Table.has a byName = true)
    (hb : Table.has b byName = true) (hloop : (Table.get? a byName).any Node.isLoop = false)
    (hhead : c.headAt a 0 = some b) : last c byName a = some (walk c byName [] b (byName.length - 1)) := by
  have hlt := hrank a b hhead
  have hne : [a].contains b = false := by
    have hab : b ≠ a := by
      rintro rfl
      exact lt_irrefl _ hlt
    simpa using hab
  obtain ⟨fuel, hfuel⟩ : ∃ fuel, byName.length = fuel + 1 := by
    cases byName with
    | nil => cases ha
    | cons e rest => exact ⟨rest.length, rfl⟩
  rw [last, if_pos ha, hfuel, walk, Connections.firstTarget_eq, hhead, hloop]
  simp only [Bool.false_eq_true, if_false, hb, hne, Bool.not_false, Bool.and_self, if_true]
  rw [walk_onward hrank fuel (List.forall_mem_singleton.2 hlt)]
  rfl

end Branch

namespace Repair

/-! ## Ends -/

theorem length_eraseDups_le_one {α : Type} [BEq α] [ReflBEq α] {l : List α} (h : ∀ a ∈ l, ∀ b ∈ l, a = b) :
    l.eraseDups.length ≤ 1 := by
  cases l with
  | nil => exact Nat.zero_le 1
  | cons a l =>
    have hothers : l.filter (fun b => !b == a) = [] := by
      refine List.filter_eq_nil_iff.2 fun b hb => ?_
      rw [h b (List.mem_cons_of_mem a hb) a List.mem_cons_self]
      simp
    rw [List.eraseDups_cons, hothers]
    exact Nat.le_refl 1

/-- the branches of a source begin where its first edges lead -/
theorem mem_branchEnds {c : Connections} {byName : Table String Node} {source s : String}
    (h : s ∈ (c.ports (.text source) mainType).filterMap fun p => p.head?.bind fun e => Branch.last c byName e.node) :
    ∃ i t, c.headAt source i = some t ∧ Branch.last c byName t = some s := by
  obtain ⟨p, hp, hlast⟩ := List.mem_filterMap.1 h
  obtain ⟨e, he, hlast⟩ := Option.bind_eq_some_iff.1 hlast
  obtain ⟨i, hi⟩ := List.mem_iff_getElem?.1 hp
  refine ⟨i, e.node, ?_, hlast⟩
  rw [Connections.headAt, Connections.portAt, hi, Option.getD_some, he, Option.map_some]

/-- **Branches that run together leave no two ends open**, as long as none of them begins with a node at which every
walk stops. -/
theorem length_openEnds_le_one {nodes : List Node} {c : Connections} {rank : String → Int} {source : String}
    (hrank : Onwards c rank) (hknown : ∀ a i b, c.headAt a i = some b → Known nodes b) (h : c.Converges source)
    (hloop : ∀ i t n, c.headAt source i = some t → Table.get? t (Document.byName nodes) = some n → n.isLoop = false) :
    (openEnds nodes c (.text source)).length ≤ 1 := by
  refine (List.length_filterMap_le _ _).trans (length_eraseDups_le_one fun s hs s' hs' => ?_)
  obtain ⟨i, t, ht, hlast⟩ := mem_branchEnds hs
  obtain ⟨i', t', ht', hlast'⟩ := mem_branchEnds hs'
  rcases h with honly | ⟨-, merge, hmerge⟩
  · -- both branches begin with the first edge on the first port
    have hzero : ∀ {i t}, c.headAt source i = some t → i = 0 := by
      intro i t ht
      by_contra hi
      rw [honly i (Nat.pos_of_ne_zero hi)] at ht
      cases ht
    cases hzero ht
    cases hzero ht'
    cases ht.symm.trans ht'
    exact Option.some.inj (hlast.symm.trans hlast')
  · have hends : ∀ {i t}, c.headAt source i = some t → Branch.last c (Document.byName nodes) t =
        some (Branch.walk c (Document.byName nodes) [] merge ((Document.byName nodes).length - 1)) := by
      intro i t ht
      have hnext := hmerge i t ht
      refine Branch.last_of_head hrank (Document.has_byName.2 (hknown _ _ _ ht))
        (Document.has_byName.2 (hknown _ _ _ hnext)) ?_ hnext
      cases hn : Table.get? t (Document.byName nodes) with
      | none => rfl
      | some n =>
        rw [Option.any_some]
        exact hloop i t n ht hn
    rw [hends ht] at hlast
    rw [hends ht'] at hlast'
    exact Option.some.inj (hlast.symm.trans hlast')

end Repair

end WorkflowGraph
