import Mathlib.Tactic
import WorkflowGraph.Text.Blank
/-
Blank texts and texts with blanks around them. What is left of a text without its surrounding blanks is empty or not
blank, and has no surrounding blanks itself.

- `isBlankText_strip`, `strip_strip`: what stripping leaves.
- `strip_eq_self_iff`: a text is stripped when its first and its last character are not blank.
-/
namespace WorkflowGraph.Text

/-! ## Blank texts -/

/-- the last character that trimming leaves is none of those trimmed -/
theorem exists_mem_trim {p : Char → Bool} {cs : List Char} (h : trim p cs ≠ []) : ∃ c ∈ trim p cs, p c = false := by
  have hne : (trimLeft p cs).reverse.dropWhile p ≠ [] := by simpa [trim, trimRight] using h
  refine ⟨((trimLeft p cs).reverse.dropWhile p).head hne, ?_, ?_⟩
  · rw [trim, trimRight, List.mem_reverse]
    exact List.head_mem hne
  · simpa using List.head_dropWhile_not p hne

theorem isBlankText_eq_false_iff {s : String} : isBlankText s = false ↔ ∃ c ∈ s.toList, isBlank c = false := by
  simp [isBlankText]

theorem isBlankText_strip {s : String} (h : (strip s).isEmpty = false) : isBlankText (strip s) = false := by
  have hne : trim isBlank s.toList ≠ [] := by
    intro hnil
    simp [strip, hnil] at h
  obtain ⟨c, hc, hb⟩ := exists_mem_trim hne
  exact isBlankText_eq_false_iff.2 ⟨c, by simpa [strip] using hc, hb⟩

/-- a text with a part that is not blank is not blank -/
theorem isBlankText_append {s : String} (h : isBlankText s = false) (t : String) : isBlankText (s ++ t) = false := by
  obtain ⟨c, hc, hb⟩ := isBlankText_eq_false_iff.1 h
  exact isBlankText_eq_false_iff.2 ⟨c, by simp [hc], hb⟩

theorem isEmpty_eq_false_of_not_blank {s : String} (h : isBlankText s = false) : s.isEmpty = false := by
  obtain ⟨c, hc, -⟩ := isBlankText_eq_false_iff.1 h
  by_contra hs
  simp_all

theorem ne_empty_of_not_blank {s : String} (h : isBlankText s = false) : s ≠ "" := by
  intro hs
  have hempty := isEmpty_eq_false_of_not_blank h
  rw [hs] at hempty
  cases hempty

/-! ## Trimming -/

theorem trimRight_prefix (p : Char → Bool) (cs : List Char) : trimRight p cs <+: cs := by
  have h : (cs.reverse.dropWhile p).reverse <+: cs.reverse.reverse := List.reverse_prefix.2 (List.dropWhile_suffix p)
  rwa [List.reverse_reverse] at h

/-- only characters of the class are left out before what trimming leaves -/
theorem exists_trim (p : Char → Bool) (cs : List Char) :
    ∃ pre post, cs = pre ++ trim p cs ++ post ∧ ∀ c ∈ pre, p c = true := by
  obtain ⟨post, hpost⟩ := trimRight_prefix p (trimLeft p cs)
  refine ⟨cs.takeWhile p, post, ?_, fun c hc => List.all_eq_true.1 List.all_takeWhile c hc⟩
  rw [List.append_assoc, show trim p cs ++ post = trimLeft p cs from hpost, trimLeft, List.takeWhile_append_dropWhile]

/-- trimming leaves no character of the class at the start -/
theorem head?_trim {p : Char → Bool} {cs : List Char} {c : Char} (h : c ∈ (trim p cs).head?) : p c = false := by
  obtain ⟨rest, hrest⟩ := trimRight_prefix p (trimLeft p cs)
  have hhead : (trimLeft p cs).head? = some c := by
    rw [← hrest, List.head?_append]
    rw [Option.mem_def] at h
    rw [show (trimRight p (trimLeft p cs)).head? = some c from h]
    rfl
  have hnot := List.head?_dropWhile_not p cs
  rw [show (cs.dropWhile p).head? = some c from hhead] at hnot
  simpa using hnot

/-- trimming leaves no character of the class at the end -/
theorem getLast?_trim {p : Char → Bool} {cs : List Char} {c : Char} (h : c ∈ (trim p cs).getLast?) : p c = false := by
  rw [trim, trimRight, List.getLast?_reverse, Option.mem_def] at h
  have hnot := List.head?_dropWhile_not p (trimLeft p cs).reverse
  rw [h] at hnot
  simpa using hnot

theorem dropWhile_eq_self {p : Char → Bool} {cs : List Char} (h : ∀ c ∈ cs.head?, p c = false) :
    cs.dropWhile p = cs := by
  cases cs with
  | nil => rfl
  | cons c cs =>
    have hc := h c rfl
    simp [hc]

/-- a text without characters of the class at its ends is trimmed already -/
theorem trim_eq_self {p : Char → Bool} {cs : List Char} (hfirst : ∀ c ∈ cs.head?, p c = false)
    (hlast : ∀ c ∈ cs.getLast?, p c = false) : trim p cs = cs := by
  rw [trim, trimLeft, dropWhile_eq_self hfirst, trimRight, dropWhile_eq_self, List.reverse_reverse]
  intro c hc
  rw [List.head?_reverse] at hc
  exact hlast c hc

/-- a text is stripped when its first and its last character are not blank -/
theorem strip_eq_self_iff {s : String} :
    strip s = s ↔ (∀ c ∈ s.toList.head?, isBlank c = false) ∧ ∀ c ∈ s.toList.getLast?, isBlank c = false := by
  constructor
  · intro h
    have hlist : trim isBlank s.toList = s.toList := by
      have := congrArg String.toList h
      simpa [strip] using this
    refine ⟨fun c hc => head?_trim (hlist.symm ▸ hc), fun c hc => getLast?_trim (hlist.symm ▸ hc)⟩
  · rintro ⟨hfirst, hlast⟩
    rw [strip, trim_eq_self hfirst hlast, String.ofList_toList]

/-- what is left of characters when they are trimmed has no blanks around it -/
theorem strip_trim (cs : List Char) : strip (String.ofList (trim isBlank cs)) = String.ofList (trim isBlank cs) := by
  rw [strip_eq_self_iff, String.toList_ofList]
  exact ⟨fun c hc => head?_trim hc, fun c hc => getLast?_trim hc⟩

theorem strip_strip (s : String) : strip (strip s) = strip s := strip_trim s.toList

theorem forall_of_dropWhile_eq_nil {p : Char → Bool} {cs : List Char} (h : cs.dropWhile p = []) :
    ∀ c ∈ cs, p c = true := by
  intro c hc
  rw [← List.takeWhile_append_dropWhile (p := p) (l := cs), h, List.append_nil] at hc
  exact (List.all_eq_true.1 List.all_takeWhile) c hc

/-- stripping leaves something of a text that is not blank -/
theorem strip_ne_empty {s : String} (h : isBlankText s = false) : strip s ≠ "" := by
  intro hempty
  have hnil : (trimLeft isBlank s.toList).reverse.dropWhile isBlank = [] := by
    have hlist := congrArg String.toList hempty
    rwa [strip, String.toList_ofList, trim, trimRight, String.toList_empty, List.reverse_eq_nil_iff] at hlist
  obtain ⟨c, hc, hb⟩ := isBlankText_eq_false_iff.1 h
  have hne : trimLeft isBlank s.toList ≠ [] := by
    intro hleft
    rw [forall_of_dropWhile_eq_nil hleft c hc] at hb
    cases hb
  have hhead : isBlank ((trimLeft isBlank s.toList).head hne) = false := List.head_dropWhile_not isBlank hne
  rw [forall_of_dropWhile_eq_nil hnil _ (List.mem_reverse.2 (List.head_mem hne))] at hhead
  cases hhead

/-- stripping leaves nothing of a blank text -/
theorem strip_eq_empty_iff {s : String} : strip s = "" ↔ isBlankText s = true := by
  constructor
  · intro hempty
    by_contra hb
    exact strip_ne_empty (Bool.not_eq_true _ ▸ hb) hempty
  · intro hblank
    by_contra hne
    have hleft : trim isBlank s.toList ≠ [] := by simpa [strip] using hne
    obtain ⟨c, hc, hb⟩ := exists_mem_trim hleft
    obtain ⟨pre, post, hsplit, -⟩ := exists_trim isBlank s.toList
    have hmem : c ∈ s.toList := by
      rw [hsplit]
      exact List.mem_append_left _ (List.mem_append_right _ hc)
    rw [isBlankText, List.all_eq_true] at hblank
    rw [hblank c hmem] at hb
    cases hb

/-- a text between two stripped ones is not at an end -/
theorem strip_append {s t : String} (hs : strip s = s) (hs' : s ≠ "") (ht : strip t = t) (ht' : t ≠ "") (m : String) :
    strip (s ++ m ++ t) = s ++ m ++ t := by
  rw [strip_eq_self_iff] at hs ht ⊢
  have hsne : s.toList ≠ [] := by simpa using hs'
  have htne : t.toList ≠ [] := by simpa using ht'
  constructor
  · intro c hc
    apply hs.1 c
    simpa [List.head?_append, List.head?_eq_some_head hsne] using hc
  · intro c hc
    apply ht.2 c
    simpa [List.getLast?_append, List.getLast?_eq_some_getLast htne] using hc

/-- a text without blanks is stripped -/
theorem strip_of_forall {s : String} (h : ∀ c ∈ s.toList, isBlank c = false) : strip s = s :=
  strip_eq_self_iff.2 ⟨fun c hc => h c (List.mem_of_mem_head? hc), fun c hc => h c (List.mem_of_mem_getLast? hc)⟩

theorem isBlank_of_isAlphanum {c : Char} (h : c.isAlphanum = true) : isBlank c = false := by
  have hrange : (65 ≤ c.toNat ∧ c.toNat ≤ 90 ∨ 97 ≤ c.toNat ∧ c.toNat ≤ 122) ∨ 48 ≤ c.toNat ∧ c.toNat ≤ 57 := by
    have hbounds : (decide ('A'.val ≤ c.val ∧ c.val ≤ 'Z'.val) ||
        (decide ('a'.val ≤ c.val) && decide (c.val ≤ 'z'.val)) ||
        (decide ('0'.val ≤ c.val) && decide (c.val ≤ '9'.val))) = true := h
    simpa [UInt32.le_iff_toNat_le] using hbounds
  rw [isBlank, ← Bool.not_eq_true, inRanges_iff]
  rintro ⟨r, hr, hle⟩
  simp only [blankRanges, List.mem_cons, List.not_mem_nil, or_false] at hr
  rcases hr with rfl | rfl | rfl | rfl | rfl | rfl | rfl | rfl | rfl | rfl <;> omega

theorem isBlank_of_isDigit {c : Char} (h : c.isDigit = true) : isBlank c = false :=
  isBlank_of_isAlphanum (by simp [Char.isAlphanum, h])

theorem strip_toString (n : Nat) : strip (toString n) = toString n := by
  apply strip_of_forall
  intro c hc
  rw [Nat.toString_eq_repr, Nat.toList_repr] at hc
  exact isBlank_of_isDigit (Nat.isDigit_of_mem_toDigits (by decide) (by decide) hc)

theorem toString_ne_empty (n : Nat) : toString n ≠ "" := by
  intro h
  have hlist := congrArg String.toList h
  rw [Nat.toString_eq_repr, Nat.toList_repr] at hlist
  exact Nat.toDigits_ne_nil hlist

end WorkflowGraph.Text
