import Mathlib.Tactic
import WorkflowGraph.Synthesis.Motifs
/-
What the motifs take of the requirements of a branch. Each takes some of them from the front, at least the one that it
starts with, and leaves the others as they were.

- `rowsOf_taken`: the rows of a parallel step and what is left of them are what there was.
- `advances_layStep`: every motif goes on in the list of requirements, and never beyond its end.
-/
namespace WorkflowGraph

namespace Synthesis

/-! ## Rows -/

/-- the requirements that a scan has taken: those of its rows, and the one that merges them -/
def RowScan.taken (s : RowScan) : List Requirement := s.rows.flatten ++ s.merge.toList

theorem flatten_extendLast {rows : List (List Requirement)} (h : rows ≠ []) (r : Requirement) :
    (extendLast rows r).flatten = rows.flatten ++ [r] := by
  induction rows with
  | nil => exact absurd rfl h
  | cons row rows ih =>
    cases rows with
    | nil => simp [extendLast]
    | cons row' rows =>
      calc (extendLast (row :: row' :: rows) r).flatten = row ++ (extendLast (row' :: rows) r).flatten := rfl
        _ = row ++ ((row' :: rows).flatten ++ [r]) := by rw [ih (List.cons_ne_nil row' rows)]
        _ = (row :: row' :: rows).flatten ++ [r] := by simp

/-- a scan loses no requirement and takes none twice -/
theorem scanRows_taken (rows : List (List Requirement)) (seen : List String) (rs : List Requirement) :
    (scanRows rows seen rs).taken ++ (scanRows rows seen rs).rest = rows.flatten ++ rs := by
  induction rs generalizing rows seen with
  | nil => simp [scanRows, RowScan.taken]
  | cons r rest ih =>
    unfold scanRows
    split
    · simp [RowScan.taken]
    · split
      · simp [RowScan.taken]
      · split
        · rw [ih]
          simp
        · split
          · simp [RowScan.taken]
          · rename_i hrows
            rw [ih, flatten_extendLast (by simpa using hrows)]
            simp

/-- the head of a parallel step, where it is not part of the first row, its rows, and what is left -/
theorem rowsOf_taken (head : Requirement) (rest : List Requirement) :
    (if head.channel.isSome then [] else [head]) ++ (rowsOf head rest).taken ++ (rowsOf head rest).rest =
      head :: rest := by
  unfold rowsOf
  cases head.channel with
  | none =>
    have hscan := scanRows_taken [] [] rest
    simpa using hscan
  | some ch =>
    have hscan := scanRows_taken [[head]] [ch] rest
    simpa using hscan

/-! ## Routes -/

theorem routesOf_initial (labels : List String) (rest : List Requirement) : routesOf labels rest <+: rest :=
  (List.takeWhile_prefix _).trans (List.take_prefix _ _)

theorem routesOf_append_drop (labels : List String) (rest : List Requirement) :
    routesOf labels rest ++ rest.drop (routesOf labels rest).length = rest :=
  List.prefix_iff_eq_append.1 (routesOf_initial labels rest)

/-- there are no more routes than labels -/
theorem length_routesOf_le (labels : List String) (rest : List Requirement) :
    (routesOf labels rest).length ≤ labels.length :=
  (List.takeWhile_prefix _).length_le.trans (List.length_take_le _ _)

theorem switchLabels_ne_nil (description : String) : switchLabels description ≠ [] := by
  have hlabels : ∀ e ∈ routeLabels, e.2 ≠ [] := by decide
  unfold switchLabels
  dsimp only
  cases hfound : routeLabels.find? _ with
  | none => exact List.cons_ne_nil _ _
  | some e => exact hlabels e (List.mem_of_find?_eq_some hfound)

/-- a switch has a label for each of its routes, and no other once it has a route -/
theorem length_usedLabels {inferred labels : List String} {routes : List Requirement} (hne : inferred ≠ [])
    (h : routes.length ≤ inferred.length)
    (hlabels : (if routes.isEmpty then inferred else inferred.take routes.length) = labels) :
    labels ≠ [] ∧ routes.length ≤ labels.length ∧ (routes ≠ [] → labels.length = routes.length) := by
  rw [← hlabels]
  cases routes with
  | nil => simpa using hne
  | cons r rest =>
    have hlength : (inferred.take (r :: rest).length).length = (r :: rest).length := by
      rw [List.length_take, Nat.min_eq_left h]
    have hpos : 0 < (inferred.take (r :: rest).length).length := by
      rw [hlength]
      exact Nat.succ_pos _
    exact ⟨List.ne_nil_of_length_pos hpos, hlength.ge, fun _ => hlength⟩

/-! ## The next requirement -/

/-- a handler that was given the requirements from number `i` on leaves those from a greater number on, none at most -/
def Advances (reqs : List Requirement) (i : Nat) (left : List Requirement) : Prop :=
  ∃ j, i < j ∧ j ≤ reqs.length ∧ left = reqs.drop j

theorem advances_of_suffix {reqs : List Requirement} {i : Nat} {r : Requirement} {rest left : List Requirement}
    (h : reqs.drop i = r :: rest) (hleft : left <:+ rest) : Advances reqs i left := by
  obtain ⟨taken, rfl⟩ := hleft
  have hlength := congrArg List.length h
  simp only [List.length_drop, List.length_cons, List.length_append] at hlength
  refine ⟨i + (taken.length + 1), by omega, by omega, ?_⟩
  rw [← List.drop_drop, h]
  simp

theorem rowsOf_rest_suffix (head : Requirement) (rest : List Requirement) : (rowsOf head rest).rest <:+ rest := by
  have hwhole : (rowsOf head rest).rest <:+ head :: rest := ⟨_, rowsOf_taken head rest⟩
  exact List.suffix_of_suffix_length_le hwhole (List.suffix_cons head rest) (rowsOf_rest_length head rest)

section

variable (cfg : BuildConfig) (pending : Bool) (c : Canvas) (y : Int)

theorem closeSwitch_rest_suffix (router : String) (routeX : Int) (ends : List String) (after : List Requirement) :
    (closeSwitch cfg pending c router routeX y ends after).2.2 <:+ after := by
  unfold closeSwitch
  dsimp only
  split
  · exact List.suffix_refl after
  · exact List.suffix_refl after
  · split
    · rename_i next others
      split
      · exact List.suffix_cons next others
      · exact List.suffix_refl _
    · split <;> exact List.suffix_refl []

variable (at' : Cursor) (r : Requirement) (rest : List Requirement)

theorem laySwitch_rest_suffix : (laySwitch cfg pending c at' y r rest).2.2 <:+ rest := by
  have hdrop : ∀ n, rest.drop n <:+ rest := fun n => List.drop_suffix n rest
  unfold laySwitch
  dsimp only
  generalize switchLabels r.text = labels
  exact (closeSwitch_rest_suffix ..).trans (hdrop _)

theorem layPlain_rest_suffix : (layPlain cfg pending c at' y r rest).2.2 <:+ rest := by
  unfold layPlain
  split
  · exact laySwitch_rest_suffix ..
  · exact List.suffix_refl rest

theorem layStep_rest_suffix : (layStep cfg pending c at' y r rest).2.2 <:+ rest := by
  unfold layStep
  split
  · dsimp only
    split
    · exact layPlain_rest_suffix ..
    · exact rowsOf_rest_suffix r rest
  · exact layPlain_rest_suffix ..

/-- **Every motif goes on in the list of requirements**, and never beyond its end: the parallel step, the switch, the
single step, and the step that chooses one of them. -/
theorem advances_layStep {reqs : List Requirement} {i : Nat} (h : reqs.drop i = r :: rest) :
    Advances reqs i (rowsOf r rest).rest ∧ Advances reqs i (laySwitch cfg pending c at' y r rest).2.2 ∧
      Advances reqs i rest ∧ Advances reqs i (layStep cfg pending c at' y r rest).2.2 :=
  ⟨advances_of_suffix h (rowsOf_rest_suffix r rest), advances_of_suffix h (laySwitch_rest_suffix ..),
    advances_of_suffix h (List.suffix_refl rest), advances_of_suffix h (layStep_rest_suffix ..)⟩

end

end Synthesis

end WorkflowGraph
