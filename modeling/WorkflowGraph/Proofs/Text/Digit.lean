import Mathlib.Tactic
import WorkflowGraph.Text.Blank
import WorkflowGraph.Text.Case
import WorkflowGraph.Text.Digit
import WorkflowGraph.Text.Word
/-
Digits, letters and blanks. A digit of any script is a word character, and no character is of two of the three classes
when the letter has no other form outside ASCII.
-/
namespace WorkflowGraph.Text

variable {c letter letter' : Char}

/-- a digit stands in one of the runs -/
theorem exists_zero (h : isDigit c = true) : ∃ z ∈ digitZeros, z ≤ c.toNat ∧ c.toNat ≤ z + 9 := by
  unfold isDigit digitValue? at h
  split at h
  · split at h
    · rename_i hrange
      exact ⟨0x30, by decide, hrange⟩
    · cases h
  · rw [Option.isSome_map, List.find?_isSome] at h
    simpa only [decide_eq_true_eq] using h

theorem zeros_in_words :
    (digitZeros.all fun z => wordRanges.any fun r => r.1.ble z && (z + 9).ble r.2) = true := by
  decide +kernel

theorem zeros_not_blank : ∀ z ∈ digitZeros, ∀ r ∈ blankRanges, r.2 < z ∨ z + 9 < r.1 := by decide +kernel

/-- what can be tried for each ASCII character -/
theorem of_ascii {P : Char → Prop} (h : ∀ n < 128, P (Char.ofNat n)) (hascii : c.toNat < 128) : P c := by
  have hc := h c.toNat hascii
  rwa [Char.ofNat_toNat] at hc

/-- a digit of any script is a word character -/
theorem isWordChar_of_isDigit (h : isDigit c = true) : isWordChar c = true := by
  by_cases hascii : c.toNat < 128
  · exact of_ascii (P := fun c => isDigit c = true → isWordChar c = true) (by decide +kernel) hascii h
  · obtain ⟨z, hz, hlow, hhigh⟩ := exists_zero h
    obtain ⟨r, hr, hcovers⟩ := List.any_eq_true.1 (List.all_eq_true.1 zeros_in_words z hz)
    rw [Bool.and_eq_true] at hcovers
    have hfirst : r.1 ≤ z := Nat.le_of_ble_eq_true hcovers.1
    have hlast : z + 9 ≤ r.2 := Nat.le_of_ble_eq_true hcovers.2
    rw [isWordChar, if_neg hascii, inRanges_iff]
    exact ⟨r, hr, hfirst.trans hlow, hhigh.trans hlast⟩

/-- no digit is blank -/
theorem isBlank_eq_false_of_isDigit (h : isDigit c = true) : isBlank c = false := by
  obtain ⟨z, hz, hlow, hhigh⟩ := exists_zero h
  rw [isBlank, ← Bool.not_eq_true, inRanges_iff]
  rintro ⟨r, hr, hfirst, hlast⟩
  have hapart := zeros_not_blank z hz r hr
  omega

/-- the letters that have no other form than the ASCII ones -/
def IsPlain (letter : Char) : Prop := letter ≠ 's' ∧ letter ≠ 'k' ∧ letter ≠ 'i'

instance (letter : Char) : Decidable (IsPlain letter) := inferInstanceAs (Decidable (_ ∧ _ ∧ _))

theorem ascii_of_matchesLetter (hplain : IsPlain letter) (h : matchesLetter letter c = true) :
    c.toNat < 128 ∧ c.toLower = letter := by
  unfold matchesLetter at h
  split at h
  · rename_i hascii
    exact ⟨hascii, beq_iff_eq.1 h⟩
  · obtain ⟨hs, hk, hi⟩ := hplain
    simp [hs, hk, hi] at h

/-- a character is read as one letter only -/
theorem eq_of_matchesLetter (hplain : IsPlain letter) (hplain' : IsPlain letter') (h : matchesLetter letter c = true)
    (h' : matchesLetter letter' c = true) : letter = letter' :=
  (ascii_of_matchesLetter hplain h).2.symm.trans (ascii_of_matchesLetter hplain' h').2

/-- a digit or a blank is read as no letter -/
theorem matchesLetter_eq_false (hplain : IsPlain letter) (halpha : letter.isAlpha = true)
    (h : isDigit c = true ∨ isBlank c = true) : matchesLetter letter c = false := by
  rw [← Bool.not_eq_true]
  intro hmatch
  obtain ⟨hascii, rfl⟩ := ascii_of_matchesLetter hplain hmatch
  exact of_ascii (P := fun c => isDigit c = true ∨ isBlank c = true → ¬ c.toLower.isAlpha = true) (by decide +kernel)
    hascii h halpha

end WorkflowGraph.Text
