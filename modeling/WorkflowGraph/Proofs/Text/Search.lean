import Mathlib.Tactic
import WorkflowGraph.Text.Digit
import WorkflowGraph.Text.Search
/-
Searching and splitting texts that were put together from pieces. A part that does not hold the separator lies within
one piece, so a search in the whole text is a search in its pieces; and the lines of joined lines are these lines.

- `infix_append_sep_iff`, `infix_flatMap_sep_iff`: where a part occurs in joined pieces.
- `mem_occurrences_iff`, `pairwise_occurrences`: all occurrences of a part, and their order.
- `cut?_eq_none_iff`, `cut?_append_sep`: what a cut finds in joined pieces.
- `lines_intercalate`, `lines_flatMap`: joined lines are read back.
- `digitsValue_toString`: so are numbers.
-/
namespace WorkflowGraph.Text

/-! ## Occurrences -/

variable {c sep : Char} {part a b : List Char}

/-- a part whose first character does not stand in the first piece lies in the second one -/
theorem infix_append_of_head_not_mem (ha : c ∉ a) : (c :: part) <:+: a ++ b ↔ (c :: part) <:+: b := by
  constructor
  · intro h
    rcases List.infix_append_iff_ne_nil.1 h with hin | hin | ⟨l₁, l₂, hne, -, heq, hsuffix, -⟩
    · exact absurd (hin.subset List.mem_cons_self) ha
    · exact hin
    · cases l₁ with
      | nil => exact absurd rfl hne
      | cons d l₁ =>
        obtain ⟨rfl, -⟩ := List.cons.inj heq
        exact absurd (hsuffix.subset List.mem_cons_self) ha
  · exact List.infix_append_of_infix_right

/-- a part whose last character does not stand in the second piece lies in the first one -/
theorem infix_append_of_last_not_mem (hb : c ∉ b) : part ++ [c] <:+: a ++ b ↔ part ++ [c] <:+: a := by
  rw [← List.reverse_infix, List.reverse_append, List.reverse_append, List.reverse_singleton, List.singleton_append,
    infix_append_of_head_not_mem (by simpa using hb), ← List.reverse_infix]
  simp

/-- a part without the separator lies on one side of it -/
theorem infix_append_sep_iff (hne : part ≠ []) (hsep : sep ∉ part) :
    part <:+: a ++ sep :: b ↔ part <:+: a ∨ part <:+: b := by
  constructor
  · intro h
    rcases List.infix_append_iff_ne_nil.1 h with hin | hin | ⟨l₁, l₂, -, hne₂, heq, -, hprefix⟩
    · exact Or.inl hin
    · rcases List.infix_cons_iff.1 hin with hprefix | hin
      · cases part with
        | nil => exact absurd rfl hne
        | cons d part =>
          obtain ⟨rfl, -⟩ := List.cons_prefix_cons.1 hprefix
          exact absurd List.mem_cons_self hsep
      · exact Or.inr hin
    · cases l₂ with
      | nil => exact absurd rfl hne₂
      | cons d l₂ =>
        obtain ⟨rfl, -⟩ := List.cons_prefix_cons.1 hprefix
        exact absurd (by simp [heq]) hsep
  · rintro (h | h)
    · exact List.infix_append_of_infix_left h
    · exact List.infix_append_of_infix_right (List.infix_cons h)

theorem infix_flatMap_sep_iff (hne : part ≠ []) (hsep : sep ∉ part) {pieces : List (List Char)} :
    part <:+: pieces.flatMap (sep :: ·) ↔ ∃ piece ∈ pieces, part <:+: piece := by
  have hjoined : ∀ a, part <:+: a ++ pieces.flatMap (sep :: ·) ↔ part <:+: a ∨ ∃ piece ∈ pieces, part <:+: piece := by
    induction pieces with
    | nil => simp
    | cons piece pieces ih =>
      intro a
      rw [List.flatMap_cons, List.cons_append, infix_append_sep_iff hne hsep, ih piece]
      simp
  have hnil := hjoined []
  rwa [List.nil_append, List.infix_nil, or_iff_right hne] at hnil

theorem mem_occurrences_iff {cs tail : List Char} (hne : part ≠ []) :
    tail ∈ occurrences part cs ↔ part <+: tail ∧ tail <:+ cs := by
  induction cs with
  | nil =>
    simp only [occurrences, List.not_mem_nil, List.suffix_nil, false_iff]
    rintro ⟨hpart, rfl⟩
    exact hne (List.prefix_nil.1 hpart)
  | cons c rest ih =>
    rw [List.suffix_cons_iff, and_or_left, ← ih]
    by_cases hhere : part.isPrefixOf (c :: rest) = true
    · rw [occurrences, if_pos hhere, List.mem_cons]
      refine or_congr_left ⟨?_, And.right⟩
      rintro rfl
      exact ⟨List.isPrefixOf_iff_prefix.1 hhere, rfl⟩
    · rw [occurrences, if_neg hhere]
      refine ⟨Or.inr, fun h => h.resolve_left ?_⟩
      rintro ⟨hpart, rfl⟩
      exact hhere (List.isPrefixOf_iff_prefix.2 hpart)

/-- occurrences come from left to right -/
theorem pairwise_occurrences (hne : part ≠ []) (cs : List Char) :
    (occurrences part cs).Pairwise fun a b => b.length < a.length := by
  induction cs with
  | nil => exact .nil
  | cons c rest ih =>
    unfold occurrences
    split
    · refine List.pairwise_cons.2 ⟨fun tail htail => ?_, ih⟩
      exact Nat.lt_succ_of_le ((mem_occurrences_iff hne).1 htail).2.length_le
    · exact ih

/-- so the last one is the shortest -/
theorem le_of_getLast?_occurrences {cs tail other : List Char} (hne : part ≠ [])
    (h : (occurrences part cs).getLast? = some tail) (hother : other ∈ occurrences part cs) :
    tail.length ≤ other.length := by
  have hpairwise := pairwise_occurrences hne cs
  obtain ⟨before, hbefore⟩ := List.getLast?_eq_some_iff.1 h
  rw [hbefore] at hpairwise hother
  rcases List.mem_append.1 hother with hearlier | hlast
  · exact ((List.pairwise_append.1 hpairwise).2.2 other hearlier tail List.mem_cons_self).le
  · exact (congrArg List.length (List.mem_singleton.1 hlast)).ge

/-! ## Cuts -/

theorem cut?_eq_none_iff {cs : List Char} : cut? part cs = none ↔ ¬ part <:+: cs := by
  induction cs with
  | nil => cases part <;> simp [cut?]
  | cons d rest ih =>
    have hdrop : dropLiteral? part (d :: rest) = none ↔ ¬ part <+: d :: rest := by
      rw [Option.eq_none_iff_forall_ne_some]
      constructor
      · rintro h ⟨after, hafter⟩
        exact h after (dropLiteral?_eq_some_iff.2 hafter.symm)
      · intro h after hafter
        exact h ⟨after, (dropLiteral?_eq_some_iff.1 hafter).symm⟩
    rw [cut?, List.infix_cons_iff, not_or, ← hdrop, ← ih]
    cases dropLiteral? part (d :: rest) <;> simp

/-- a part is found where the text starts with it -/
theorem cut?_append_self (part b : List Char) : cut? part (part ++ b) = some ([], b) := by
  have hdrop : dropLiteral? part (part ++ b) = some b := dropLiteral?_eq_some_iff.2 rfl
  cases h : part ++ b with
  | nil =>
    obtain ⟨rfl, rfl⟩ := List.append_eq_nil_iff.1 h
    rfl
  | cons d rest =>
    rw [h] at hdrop
    rw [cut?, hdrop]

/-- a part is looked for behind a character that it does not start with -/
theorem cut?_cons_of_ne {d : Char} (h : c ≠ d) (part cs : List Char) :
    cut? (c :: part) (d :: cs) = (cut? (c :: part) cs).map fun (before, after) => (d :: before, after) := by
  rw [cut?, dropLiteral?, if_neg h]

/-- a part without the separator is looked for behind a piece that does not hold it -/
theorem cut?_append_sep (hne : part ≠ []) (hsep : sep ∉ part) (ha : ¬ part <:+: a) (b : List Char) :
    cut? part (a ++ sep :: b) = (cut? part b).map fun (before, after) => (a ++ sep :: before, after) := by
  have hstart : ∀ a, ¬ part <:+: a → dropLiteral? part (a ++ sep :: b) = none := by
    intro a ha
    rw [Option.eq_none_iff_forall_ne_some]
    intro after hafter
    rcases List.append_eq_append_iff.1 (dropLiteral?_eq_some_iff.1 hafter) with ⟨l, rfl, hl⟩ | ⟨l, rfl, -⟩
    · cases l with
      | nil => exact ha (by simp)
      | cons d l =>
        obtain ⟨rfl, -⟩ := List.cons.inj hl
        exact hsep (by simp)
    · exact ha (List.infix_append_left)
  induction a with
  | nil =>
    have hnone := hstart [] ha
    rw [List.nil_append] at hnone ⊢
    rw [cut?, hnone]
    rfl
  | cons d a ih =>
    have hnone := hstart (d :: a) ha
    rw [List.cons_append] at hnone ⊢
    rw [cut?, hnone, ih fun h => ha (List.infix_cons h), Option.map_map]
    rfl

/-! ## Lines -/

theorem splitOn_eq (sep : Char) (cs : List Char) : splitOn sep cs = cs.splitOn sep := by
  induction cs with
  | nil => rfl
  | cons c rest ih =>
    rw [splitOn, List.splitOn_cons_eq_if_modifyHead, ← ih]
    by_cases h : c = sep
    · simp [h]
    · cases hs : splitOn sep rest with
      | nil => exact absurd hs (splitOn_ne_nil sep rest)
      | cons piece pieces => simp [h]

theorem lines_intercalate {ls : List (List Char)} (hne : ls ≠ []) (h : ∀ l ∈ ls, '\n' ∉ l) :
    lines (['\n'].intercalate ls) = ls := by
  rw [lines, splitOn_eq, List.splitOn_intercalate '\n' h hne]

/-- lines that each follow a line break stand below an empty line -/
theorem lines_flatMap {ls : List (List Char)} (h : ∀ l ∈ ls, '\n' ∉ l) : lines (ls.flatMap ('\n' :: ·)) = [] :: ls := by
  have hjoin : ls.flatMap ('\n' :: ·) = ['\n'].intercalate ([] :: ls) := by
    induction ls with
    | nil => rfl
    | cons l ls ih =>
      rw [List.flatMap_cons, ih fun l hl => h l (List.mem_cons_of_mem _ hl), List.intercalate_cons_cons]
      cases ls <;> simp [List.intercalate]
  rw [hjoin, lines_intercalate (List.cons_ne_nil _ _)]
  simpa using h

/-! ## Numbers -/

theorem digitValue?_of_isDigit (h : c.isDigit = true) : digitValue? c = some (c.toNat - 48) := by
  have hrange : 48 ≤ c.toNat ∧ c.toNat ≤ 57 := by
    simpa [Char.isDigit, UInt32.le_iff_toNat_le] using h
  rw [digitValue?, if_pos (by omega), if_pos hrange]

theorem isDigit_of_mem_toString {n : Nat} (h : c ∈ (toString n).toList) : isDigit c = true := by
  rw [Nat.toString_eq_repr, Nat.toList_repr] at h
  rw [isDigit, digitValue?_of_isDigit (Nat.isDigit_of_mem_toDigits (by decide) (by decide) h)]
  rfl

theorem not_mem_toString {n : Nat} (h : isDigit c = false) : c ∉ (toString n).toList := by
  intro hc
  rw [isDigit_of_mem_toString hc] at h
  cases h

/-- a number is written with a digit first -/
theorem exists_digit_cons (n : Nat) : ∃ d ds, (toString n).toList = d :: ds ∧ isDigit d = true := by
  cases h : (toString n).toList with
  | nil =>
    rw [Nat.toString_eq_repr, Nat.toList_repr] at h
    exact absurd h Nat.toDigits_ne_nil
  | cons d ds => exact ⟨d, ds, rfl, isDigit_of_mem_toString (h ▸ List.mem_cons_self)⟩

/-- the digits of a number are read back as the number -/
theorem digitsValue_toString (n : Nat) : digitsValue (toString n).toList = n := by
  have hvalue : ∀ cs : List Char, (∀ c ∈ cs, c.isDigit = true) → ∀ m,
      cs.foldl (fun n c => 10 * n + (digitValue? c).getD 0) m = Nat.ofDigitChars 10 cs m := by
    intro cs
    induction cs with
    | nil => simp
    | cons c cs ih =>
      intro h m
      rw [List.forall_mem_cons] at h
      rw [List.foldl_cons, ih h.2, Nat.ofDigitChars_cons, digitValue?_of_isDigit h.1]
      rfl
  rw [Nat.toString_eq_repr, Nat.toList_repr, digitsValue,
    hvalue _ (fun c hc => Nat.isDigit_of_mem_toDigits (by decide) (by decide) hc), Nat.ofDigitChars_ten_toDigits]

end WorkflowGraph.Text
