import Mathlib.Tactic
import Mathlib.Data.List.Chain
import WorkflowGraph.Graph
/-
The end of a branch. A walk along first edges visits known names, each of them once, so it is no longer than the table of
known names is and comes to an end. It ends at a node whose edges lead back, or where the first edge leads nowhere: there
is none, or its target is unknown or was visited. No other walk from the same name ends anywhere else.

- `Walk.snoc`, `exists_walk`: what one step of a walk keeps, and where a whole walk ends.
- `Walk.unique`: where a walk ends is decided by where it starts.
- `last_walked`: the end of a branch, for all connections, names and tables, edges in circles and to nowhere included.
-/
namespace WorkflowGraph

namespace Branch

variable {c : Connections} {byName : Table String Node} {start s next : String} {path : List String}

/-- the edges of the node of a name lead back -/
def turnsBack (byName : Table String Node) (s : String) : Bool := (Table.get? s byName).any Node.isLoop

/-- a walk along first edges over known names, none of them twice, that passes no node whose edges lead back -/
structure Walk (c : Connections) (byName : Table String Node) (start : String) (path : List String) (s : String) :
    Prop where
  starts : path.head? = some start
  ends : path.getLast? = some s
  follows : path.IsChain fun a b => c.firstTarget (.text a) = some b
  distinct : path.Nodup
  known : ∀ a ∈ path, Table.has a byName = true
  passes : ∀ a ∈ path.dropLast, turnsBack byName a = false

/-- why a walk goes no further than to a name -/
inductive Stops (c : Connections) (byName : Table String Node) (path : List String) (s : String) : Prop
  | turn (h : turnsBack byName s = true)
  | deadEnd (h : c.firstTarget (.text s) = none)
  | unknown {next : String} (h : c.firstTarget (.text s) = some next) (hunknown : Table.has next byName = false)
  | visited {next : String} (h : c.firstTarget (.text s) = some next) (hvisited : next ∈ path)

/-! ## Walks -/

theorem walk_start (h : Table.has start byName = true) : Walk c byName start [start] start where
  starts := rfl
  ends := rfl
  follows := List.isChain_singleton start
  distinct := List.nodup_singleton start
  known := List.forall_mem_singleton.2 h
  passes := by simp

/-- a walk that goes one step on -/
theorem Walk.snoc (h : Walk c byName start path s) (hturn : turnsBack byName s = false)
    (hfirst : c.firstTarget (.text s) = some next) (hknown : Table.has next byName = true) (hnew : next ∉ path) :
    Walk c byName start (path ++ [next]) next where
  starts := by rw [List.head?_append, h.starts, Option.some_or]
  ends := List.getLast?_concat
  follows := by
    refine List.isChain_append.2 ⟨h.follows, List.isChain_singleton next, fun a ha b hb => ?_⟩
    rw [h.ends] at ha
    cases ha
    cases hb
    exact hfirst
  distinct := by
    rw [List.nodup_append]
    refine ⟨h.distinct, List.nodup_singleton next, fun a ha b hb => ?_⟩
    rw [List.mem_singleton.1 hb]
    rintro rfl
    exact hnew ha
  known := List.forall_mem_append.2 ⟨h.known, List.forall_mem_singleton.2 hknown⟩
  passes := by
    rw [List.dropLast_concat, ← List.dropLast_concat_getLast (l := path) (by rintro rfl; cases h.ends)]
    refine List.forall_mem_append.2 ⟨h.passes, List.forall_mem_singleton.2 ?_⟩
    rwa [← Option.some_inj.1 ((List.getLast?_eq_some_getLast _).symm.trans h.ends)] at hturn

/-- a walk is no longer than the table of known names -/
theorem Walk.length_le (h : Walk c byName start path s) : path.length ≤ byName.length := by
  have hsub : path ⊆ byName.map (·.1) := by
    intro a ha
    obtain ⟨e, he, hname⟩ := List.any_eq_true.1 (h.known a ha)
    exact List.mem_map.2 ⟨e, he, beq_iff_eq.1 hname⟩
  have hlength := (List.subperm_of_subset h.distinct hsub).length_le
  rwa [List.length_map] at hlength

/-- **A walk comes to an end.** As long as there is a name left for every step, it stops for a reason. -/
theorem exists_walk {seen : List String} {fuel : Nat} (h : Walk c byName start path s)
    (hseen : ∀ a, a ∈ path ↔ a ∈ s :: seen) (hfuel : byName.length < path.length + fuel) :
    ∃ path', Walk c byName start path' (walk c byName seen s fuel) ∧
      Stops c byName path' (walk c byName seen s fuel) := by
  induction fuel generalizing path seen s with
  | zero => exact absurd h.length_le (Nat.not_le_of_lt hfuel)
  | succ fuel ih =>
    rw [walk]
    split
    · rename_i hturn
      exact ⟨path, h, .turn hturn⟩
    · rename_i hturn
      rw [Bool.not_eq_true] at hturn
      cases hfirst : c.firstTarget (.text s) with
      | none => exact ⟨path, h, .deadEnd hfirst⟩
      | some next =>
        dsimp only
        split
        · rename_i hnext
          rw [Bool.and_eq_true, Bool.not_eq_true', ← Bool.not_eq_true, List.contains_iff_mem, ← hseen] at hnext
          refine ih (h.snoc hturn hfirst hnext.1 hnext.2) (fun a => ?_) ?_
          · rw [List.mem_append, hseen, List.mem_singleton, List.mem_cons (a := a) (b := next), or_comm]
          · rw [List.length_append, List.length_singleton]
            omega
        · rename_i hnext
          by_cases hknown : Table.has next byName = true
          · rw [hknown, Bool.true_and, Bool.not_eq_true', Bool.not_eq_false, List.contains_iff_mem, ← hseen] at hnext
            exact ⟨path, h, .visited hfirst hnext⟩
          · exact ⟨path, h, .unknown hfirst (Bool.not_eq_true _ ▸ hknown)⟩

/-! ## One end -/

/-- of two chains of one function from one place, one goes on where the other ends -/
theorem prefix_or_prefix {α : Type} {f : α → Option α} {l l' : List α} (h : l.IsChain fun a b => f a = some b)
    (h' : l'.IsChain fun a b => f a = some b) (hhead : l.head? = l'.head?) : l <+: l' ∨ l' <+: l := by
  induction l generalizing l' with
  | nil => exact Or.inl (List.nil_prefix)
  | cons a l ih =>
    cases l' with
    | nil => cases hhead
    | cons a' l' =>
      obtain rfl : a = a' := Option.some_inj.1 hhead
      rw [List.isChain_cons] at h h'
      cases l with
      | nil => exact Or.inl (List.prefix_append [a] l')
      | cons b l =>
        cases l' with
        | nil => exact Or.inr (List.prefix_append [a] (b :: l))
        | cons b' l' =>
          have hnext : (b :: l).head? = (b' :: l').head? := (h.1 b rfl).symm.trans (h'.1 b' rfl)
          exact (ih h.2 h'.2 hnext).imp (fun hp => List.cons_prefix_cons.2 ⟨rfl, hp⟩)
            fun hp => List.cons_prefix_cons.2 ⟨rfl, hp⟩

/-- a walk that has stopped is not the beginning of a longer one -/
theorem Walk.eq_of_prefix {path' : List String} {s' : String} (h : Walk c byName start path s)
    (hstops : Stops c byName path s) (h' : Walk c byName start path' s') (hpath : path <+: path') : path = path' := by
  obtain ⟨rest, rfl⟩ := hpath
  cases rest with
  | nil => rw [List.append_nil]
  | cons next rest =>
    exfalso
    have hmem : s ∈ path := List.mem_of_getLast? h.ends
    have hturn : turnsBack byName s = false := by
      refine h'.passes s ?_
      rw [List.dropLast_append_of_ne_nil (List.cons_ne_nil _ _)]
      exact List.mem_append_left _ hmem
    have hfirst : c.firstTarget (.text s) = some next := (List.isChain_append.1 h'.follows).2.2 s h.ends next rfl
    have hknown : Table.has next byName = true := h'.known next (by simp)
    have hnew : next ∉ path := fun hvisited => (List.nodup_append.1 h'.distinct).2.2 next hvisited next (by simp) rfl
    cases hstops with
    | turn ht => cases hturn.symm.trans ht
    | deadEnd hd => cases hfirst.symm.trans hd
    | unknown hu hunknown =>
      cases hfirst.symm.trans hu
      cases hknown.symm.trans hunknown
    | visited hv hvisited =>
      cases hfirst.symm.trans hv
      exact hnew hvisited

/-- **Where a walk stops is decided by where it starts.** -/
theorem Walk.unique {path' : List String} {s' : String} (h : Walk c byName start path s)
    (hstops : Stops c byName path s) (h' : Walk c byName start path' s') (hstops' : Stops c byName path' s') :
    s = s' := by
  have heq : path = path' := by
    rcases prefix_or_prefix h.follows h'.follows (h.starts.trans h'.starts.symm) with hpath | hpath
    · exact h.eq_of_prefix hstops h' hpath
    · exact (h'.eq_of_prefix hstops' h hpath).symm
  exact Option.some_inj.1 (h.ends.symm.trans (heq ▸ h'.ends))

/-- a name that starts no walk is unknown -/
theorem Walk.known_start (h : Walk c byName start path s) : Table.has start byName = true :=
  h.known start (List.mem_of_mem_head? h.starts)

/-- **The end of a branch.** It is missing just when the start is unknown, and otherwise it is the name at which the walk
from the start stops; no walk visits more names than there are. -/
theorem last_walked (c : Connections) (byName : Table String Node) (start : String) :
    (last c byName start = none ↔ Table.has start byName = false) ∧
      (∀ s, last c byName start = some s ↔ ∃ path, Walk c byName start path s ∧ Stops c byName path s) ∧
      ∀ path s, Walk c byName start path s → path.length ≤ byName.length := by
  refine ⟨?_, fun s => ?_, fun path s h => h.length_le⟩
  · simp [last]
  · by_cases hknown : Table.has start byName = true
    · obtain ⟨path, hwalk, hstops⟩ : ∃ path, Walk c byName start path (walk c byName [] start byName.length) ∧
          Stops c byName path (walk c byName [] start byName.length) :=
        exists_walk (walk_start hknown) (fun a => Iff.rfl) (by simp)
      rw [last, if_pos hknown, Option.some_inj]
      constructor
      · rintro rfl
        exact ⟨path, hwalk, hstops⟩
      · rintro ⟨path', hwalk', hstops'⟩
        exact hwalk.unique hstops hwalk' hstops'
    · rw [last, if_neg hknown]
      constructor
      · rintro ⟨⟩
      · rintro ⟨path, hwalk, -⟩
        exact absurd hwalk.known_start hknown

/-- a walk into a circle ends where the circle closes -/
example :
    let c := ((Connections.empty.connect (.text "Start") "Ask" 0).connect (.text "Ask") "Answer" 0).connect
      (.text "Answer") "Ask" 0
    let byName : Table String Node := [("Start", ⟨[]⟩), ("Ask", ⟨[]⟩), ("Answer", ⟨[]⟩)]
    last c byName "Start" = some "Answer" ∧ last c byName "End" = none := by
  decide +kernel

end Branch

end WorkflowGraph
