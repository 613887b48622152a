import WorkflowGraph.Plan.Basic
import WorkflowGraph.Plan.Line
import WorkflowGraph.Proofs.Text.Blank
import WorkflowGraph.Proofs.Text.Search
/-
Lines of a plan as a planner writes them: what stands on one line, and what is read back of a number and of a text
under a label.
-/
namespace WorkflowGraph

namespace Plan

open Text

/-- one line of text without blanks around it -/
structure IsLine (s : String) : Prop where
  noBreak : '\n' ∉ s.toList
  stripped : strip s = s

/-- whether the name of a step only repeats the trigger -/
def repeatsTrigger (name : String) : Bool :=
  contains (lower name) "trigger" || contains (lower name) "order received"

theorem isTriggerStep_eq (name : String) : isTriggerStep name = repeatsTrigger name := by
  simp [isTriggerStep, containsAny, triggerMarkers, repeatsTrigger]

/-! ## Lines -/

theorem IsLine.trim_toList {s : String} (h : IsLine s) : trim isBlank s.toList = s.toList := by
  have hstrip := congrArg String.toList h.stripped
  rwa [strip, String.toList_ofList] at hstrip

/-- no blank stands before a line -/
theorem IsLine.not_blank_of_head {s : String} (h : IsLine s) {c : Char} (hc : c ∈ s.toList.head?) :
    isBlank c = false :=
  (strip_eq_self_iff.1 h.stripped).1 c hc

/-- a blank before a line is trimmed -/
theorem IsLine.trim_cons {s : String} (h : IsLine s) : trim isBlank (' ' :: s.toList) = s.toList := by
  rw [trim, trimLeft, List.dropWhile_cons_of_pos (by decide)]
  exact h.trim_toList

theorem IsLine.trimRight_toList {s : String} (h : IsLine s) : trimRight isBlank s.toList = s.toList := by
  have htrim := h.trim_toList
  rwa [trim, trimLeft, dropWhile_eq_self fun c hc => h.not_blank_of_head hc] at htrim

theorem not_space_of_not_blank {c : Char} (h : isBlank c = false) : isSpaceOrTab c = false := by
  rw [isSpaceOrTab, Bool.or_eq_false_iff, beq_eq_false_iff_ne, beq_eq_false_iff_ne]
  constructor
  · rintro rfl
    exact absurd h (by decide)
  · rintro rfl
    exact absurd h (by decide)

/-- a line does not start with a space or a tab -/
theorem IsLine.dropWhile_toList {s : String} (h : IsLine s) : s.toList.dropWhile isSpaceOrTab = s.toList :=
  dropWhile_eq_self fun _ hc => not_space_of_not_blank (h.not_blank_of_head hc)

/-- some lines that are joined to a text, with `n` empty ones behind them, are the lines of the text -/
theorem lines_padded {ls : List String} {n : Nat} (hne : ls.map String.toList ++ List.replicate n [] ≠ [])
    (hbreak : ∀ l ∈ ls, '\n' ∉ l.toList) :
    lines ("\n".intercalate (ls ++ List.replicate n "")).toList = ls.map String.toList ++ List.replicate n [] := by
  have hjoin : ("\n".intercalate (ls ++ List.replicate n "")).toList =
      ['\n'].intercalate (ls.map String.toList ++ List.replicate n []) := by
    rw [String.toList_intercalate, List.map_append, List.map_replicate]
    rfl
  rw [hjoin, lines_intercalate hne]
  intro l hl
  rcases List.mem_append.1 hl with hline | hempty
  · obtain ⟨s, hs, rfl⟩ := List.mem_map.1 hline
    exact hbreak s hs
  · rw [List.eq_of_mem_replicate hempty]
    exact List.not_mem_nil

/-! ## Numbers and labels -/

/-- the number before a point is taken off a line -/
theorem takeNumber?_toString (n : Nat) (rest : List Char) :
    takeNumber? ((toString n).toList ++ '.' :: rest) = some ((toString n).toList, rest) := by
  have hdigits : ∀ c ∈ (toString n).toList, isDigit c = true := fun c => isDigit_of_mem_toString
  rw [takeNumber?, List.takeWhile_append_of_pos hdigits, List.dropWhile_append_of_pos hdigits,
    List.takeWhile_cons_of_neg (by decide), List.dropWhile_cons_of_neg (by decide), List.append_nil]
  obtain ⟨d, ds, hds, -⟩ := exists_digit_cons n
  rw [hds]
  rfl

/-- a text without the marker is left whole -/
theorem before_eq_self {marker cs : List Char} (h : ¬ marker <:+: cs) : before marker cs = cs := by
  rw [before, cut?_eq_none_iff.2 h]

/-- a text before a character -/
theorem before_singleton (c : Char) (cs : List Char) : before [c] cs = cs.takeWhile (· != c) := by
  induction cs with
  | nil => rfl
  | cons d rest ih =>
    rw [before] at ih ⊢
    by_cases h : c = d
    · simp [cut?, dropLiteral?, h]
    · rw [List.takeWhile_cons_of_pos (by simpa using Ne.symm h), ← ih]
      cases hcut : cut? [c] rest <;> simp [cut?, dropLiteral?, h, hcut]

/-- what follows the label at the start of a line -/
theorem afterLabel?_append (label : List Char) (c : Char) (rest : List Char) :
    afterLabel? label (label ++ c :: rest) = some (c :: rest) := by
  rw [afterLabel?, cut?_append_self]

end Plan

end WorkflowGraph
