import WorkflowGraph.Proofs.Graph
import WorkflowGraph.Proofs.NameRegistry
/-
Nodes named by a registry. As long as the names of all nodes are taken, one more node with a name that the registry
hands out keeps the names proper and taken.
-/
namespace WorkflowGraph

/-- the names of all nodes are taken -/
def Registered (nodes : List Node) (registry : NameRegistry) : Prop :=
  ∀ n ∈ nodes, ∀ s, n.name = .text s → s ∈ registry.taken

theorem registered_nil (registry : NameRegistry) : Registered [] registry := by simp [Registered]

theorem wellNamed_nil : WellNamed [] := ⟨by simp, List.nodup_nil⟩

theorem nodup_map_snoc {α β : Type} {f : α → β} {l : List α} {a : α} (h : (l.map f).Nodup)
    (ha : ∀ b ∈ l, f b ≠ f a) : ((l ++ [a]).map f).Nodup := by
  rw [List.map_append, List.nodup_append]
  refine ⟨h, List.nodup_singleton _, ?_⟩
  rintro x hx y hy rfl
  obtain ⟨b, hb, rfl⟩ := List.mem_map.1 hx
  exact ha b hb (by simpa using hy)

/-- a name that is handed out is new -/
theorem Registered.new {nodes : List Node} {registry : NameRegistry} (h : Registered nodes registry) (wanted : String) :
    ∀ n ∈ nodes, n.name ≠ .text (registry.freshName wanted) := by
  intro n hn hname
  exact registry.freshName_not_mem wanted (h n hn _ hname)

theorem Registered.snoc {nodes : List Node} {registry : NameRegistry} (h : Registered nodes registry) {n : Node}
    {s : String} (hname : n.name = .text s) : Registered (nodes ++ [n]) (registry.take s) := by
  intro m hm t ht
  rcases List.mem_append.1 hm with hm | hm
  · exact List.mem_cons_of_mem _ (h m hm t ht)
  · rw [List.mem_singleton.1 hm, hname] at ht
    cases ht
    exact List.mem_cons_self

/-- one more node with a name that the registry hands out -/
theorem WellNamed.snoc {nodes : List Node} {registry : NameRegistry} (h : WellNamed nodes)
    (hr : Registered nodes registry) {n : Node} {wanted : String} (hname : n.name = .text (registry.freshName wanted)) :
    WellNamed (nodes ++ [n]) where
  texts := by
    refine List.forall_mem_append.2 ⟨h.texts, List.forall_mem_singleton.2 ?_⟩
    exact ⟨_, hname, registry.freshName_not_blank wanted⟩
  distinct := nodup_map_snoc h.distinct fun m hm heq => hr.new wanted m hm (heq.trans hname)

end WorkflowGraph
