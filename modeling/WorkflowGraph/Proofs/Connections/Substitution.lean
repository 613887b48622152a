import Mathlib.Order.Bounds.Basic
import WorkflowGraph.Proofs.Connections.Changes
/-
Names of connections substituted. The sources that come to be one name are merged port by port and all edges are led to
the new names; what comes out is the image of the edges under the map of names, on as many ports as the largest of the
merged sources has.

- `Substituted.trans`: substitutions compose.
- `Substituted.rename`: a change of a name is a substitution.
-/
namespace WorkflowGraph

namespace Connections

/-! ## Substitution -/

/-- how many ports of a type the sources have that come to be one name -/
def portCounts (c : Connections) (f : String → String) (t portType : String) : Set Nat :=
  {n | ∃ t₀, f t₀ = t ∧ (c.ports (.text t₀) portType).length = n}

/-- the edges are the image of those before under a map of names, and every name has as many ports of a type as the
largest of the sources that come to be it -/
structure Substituted (f : String → String) (c d : Connections) : Prop where
  links : ∀ l, l ∈ d.links ↔ ∃ l₀ ∈ c.links, l₀.renamed f = l
  ports : ∀ t portType, IsLUB (c.portCounts f t portType) (d.ports (.text t) portType).length

theorem isLUB_portCounts_iff {c : Connections} {f : String → String} {t portType : String} {k : Nat} :
    IsLUB (c.portCounts f t portType) k ↔
      ∀ n, k ≤ n ↔ ∀ t₀, f t₀ = t → (c.ports (.text t₀) portType).length ≤ n := by
  rw [isLUB_iff_le_iff]
  refine forall_congr' fun n => iff_congr Iff.rfl ?_
  constructor
  · exact fun h t₀ ht => h ⟨t₀, ht, rfl⟩
  · rintro h _ ⟨t₀, ht, rfl⟩
    exact h t₀ ht

/-- where a map fixes all that connections mention, they are their own image -/
theorem Substituted.of_fixed {f : String → String} {c : Connections} (hlinks : ∀ l ∈ c.links, l.renamed f = l)
    (hports : ∀ t portType, c.ports (.text t) portType ≠ [] → f t = t) : Substituted f c c where
  links l := by
    constructor
    · exact fun hl => ⟨l, hl, hlinks l hl⟩
    · rintro ⟨l₀, hl₀, rfl⟩
      rwa [hlinks l₀ hl₀]
  ports t portType := by
    rw [isLUB_portCounts_iff]
    intro n
    constructor
    · rintro h t₀ rfl
      by_cases hnone : c.ports (.text t₀) portType = []
      · simp [hnone]
      · rwa [hports t₀ portType hnone] at h
    · intro h
      by_cases hnone : c.ports (.text t) portType = []
      · simp [hnone]
      · exact h t (hports t portType hnone)

theorem Substituted.refl (c : Connections) : Substituted id c c :=
  .of_fixed (fun l _ => l.renamed_id) fun _ _ _ => rfl

/-- substitutions compose -/
theorem Substituted.trans {f g : String → String} {c d e : Connections} (hcd : Substituted f c d)
    (hde : Substituted g d e) : Substituted (g ∘ f) c e where
  links l := by
    rw [hde.links l]
    constructor
    · rintro ⟨l₁, hl₁, rfl⟩
      obtain ⟨l₀, hl₀, rfl⟩ := (hcd.links l₁).1 hl₁
      exact ⟨l₀, hl₀, (Link.renamed_renamed f g l₀).symm⟩
    · rintro ⟨l₀, hl₀, rfl⟩
      exact ⟨l₀.renamed f, (hcd.links _).2 ⟨l₀, hl₀, rfl⟩, Link.renamed_renamed f g l₀⟩
  ports t portType := by
    have hd := fun t₁ => isLUB_portCounts_iff.1 (hcd.ports t₁ portType)
    rw [isLUB_portCounts_iff]
    intro n
    rw [isLUB_portCounts_iff.1 (hde.ports t portType) n]
    constructor
    · intro h t₀ ht
      exact (hd (f t₀) n).1 (h (f t₀) ht) t₀ rfl
    · intro h t₁ ht
      refine (hd t₁ n).2 fun t₀ ht₀ => h t₀ ?_
      rw [Function.comp_apply, ht₀, ht]

/-! ## One name changed -/

theorem length_mergePorts (kept moved : List Port) : (mergePorts kept moved).length = max kept.length moved.length := by
  induction kept generalizing moved with
  | nil => simp [mergePorts]
  | cons k kept ih =>
    cases moved with
    | nil => simp [mergePorts]
    | cons m moved => simp [mergePorts, ih, Nat.succ_max_succ]

/-- ports added one type after another open as many as either side has -/
theorem length_ports_foldl {moved : PortTable} (hm : Table.Distinct moved) (d : Connections) (new t portType : String) :
    ((moved.foldl (fun c y => c.modifyPorts (.text new) y.1 (mergePorts · y.2)) d).ports (.text t) portType).length =
      if new = t then
        max (d.ports (.text t) portType).length ((Table.get? portType moved).getD []).length
      else (d.ports (.text t) portType).length := by
  induction moved generalizing d with
  | nil => simp [Table.get?]
  | cons y moved ih =>
    obtain ⟨pt, ports⟩ := y
    obtain ⟨hnew, hm⟩ := List.pairwise_cons.1 hm
    rw [List.foldl_cons, ih hm, ports_modifyPorts, Table.get?, Key.text_beq_text]
    by_cases ht : new = t
    · subst ht
      by_cases hpt : pt = portType
      · subst hpt
        -- no later entry has the type
        have hnone : Table.get? pt moved = none := by
          cases hg : Table.get? pt moved with
          | none => rfl
          | some ports' =>
            obtain ⟨pt', hpt', hmem⟩ := Table.exists_mem_of_get? hg
            have hne := hnew _ hmem
            rw [beq_iff_eq] at hpt'
            simp [hpt'] at hne
        simp [hnone, length_mergePorts]
      · simp [hpt]
    · simp [ht]

/-- how many ports of a type the names have once one is changed -/
theorem Apart.length_ports_rename {c : Connections} (h : Apart c) {old new : String} (hne : old ≠ new)
    (t portType : String) :
    ((c.rename old new).ports (.text t) portType).length =
      if new = t then max (c.ports (.text new) portType).length (c.ports (.text old) portType).length
      else if old = t then 0 else (c.ports (.text t) portType).length := by
  have hremoved : ((⟨c.table.remove (.text old)⟩ : Connections).ports (.text t) portType).length =
      if old = t then 0 else (c.ports (.text t) portType).length := by
    unfold Connections.ports portTable
    rw [Table.get?_remove h.sources, Key.text_beq_text]
    by_cases ht : old = t
    · simp [ht, Table.get?]
    · simp [ht]
  have htypes : Table.Distinct (c.portTable (.text old)) := by
    unfold portTable
    cases ht : Table.get? (.text old) c.table with
    | none => exact Table.distinct_nil
    | some t =>
      obtain ⟨k, -, hmem⟩ := Table.exists_mem_of_get? ht
      exact h.types _ hmem
  rw [rename_of_ne c hne, ports_mapPorts, List.length_map, moveSource, length_ports_foldl htypes, hremoved]
  by_cases hnew : new = t
  · subst hnew
    rw [if_pos rfl, if_pos rfl, if_neg hne]
    rfl
  · rw [if_neg hnew, if_neg hnew]

/-- **A change of a name is a substitution.** -/
theorem Substituted.rename {c : Connections} (hc : Keyed c) (old new : String) :
    Substituted (redirect old new) c (c.rename old new) := by
  by_cases hne : old = new
  · subst hne
    rw [Connections.rename, if_pos rfl, redirect_self]
    exact .refl c
  · refine ⟨fun l => hc.mem_links_rename old new, fun t portType => ?_⟩
    rw [isLUB_portCounts_iff, hc.apart.length_ports_rename hne]
    intro n
    have hnew : redirect old new new = new := by
      rw [redirect, if_neg (Ne.symm hne)]
    have hold : redirect old new old = new := by
      rw [redirect, if_pos rfl]
    constructor
    · rintro h t₀ rfl
      rw [redirect] at h
      by_cases ht : t₀ = old
      · subst ht
        rw [if_pos rfl, if_pos rfl] at h
        exact (Nat.max_le.1 h).2
      · rw [if_neg ht, if_neg (Ne.symm ht)] at h
        split at h
        · rename_i hsame
          subst hsame
          exact (Nat.max_le.1 h).1
        · exact h
    · intro h
      split
      · rename_i hsame
        subst hsame
        exact Nat.max_le.2 ⟨h new hnew, h old hold⟩
      · split
        · exact Nat.zero_le n
        · rename_i hother
          exact h t (by rw [redirect, if_neg (Ne.symm hother)])

end Connections

end WorkflowGraph
