import Mathlib.Tactic
import WorkflowGraph.Text.Case
/-
Upper case. What the tables map a character to is moved by none of them, so a text in upper case is its own upper case.

- `not_covers_of_apart`: when a run stays off a row of code points.
- `upper_upper`: the upper case of the upper case.
-/
namespace WorkflowGraph.Text

/-! ## Runs -/

def Covers (r : CaseRun) (n : Nat) : Prop := r.1 ≤ n ∧ n ≤ r.2.1 ∧ (n - r.1) % r.2.2.1 = 0

/-- a run covers none of the code points from `lo` to `hi` in steps: it ends before them, starts after them, or falls
between them -/
def apart (lo hi step : Nat) (r : CaseRun) : Bool :=
  Nat.blt hi r.1 || Nat.blt r.2.1 lo ||
    (Nat.beq (step % r.2.2.1) 0 && !Nat.beq (lo % r.2.2.1) (r.1 % r.2.2.1))

theorem not_covers_of_apart {lo hi step n k : Nat} {r : CaseRun} (h : apart lo hi step r = true)
    (hn : n = lo + k * step) (hle : n ≤ hi) : ¬ Covers r n := by
  rintro ⟨hfirst, hlast, hstep⟩
  simp only [apart, Bool.or_eq_true, Nat.blt_eq, Bool.and_eq_true, Nat.beq_eq, Bool.not_eq_true',
    ← Bool.not_eq_true] at h
  rcases h with (hbefore | hafter) | ⟨hdiv, hoff⟩
  · omega
  · subst hn
    omega
  · apply hoff
    obtain ⟨j, hj⟩ := Nat.dvd_of_mod_eq_zero hstep
    obtain ⟨i, hi⟩ := Nat.dvd_of_mod_eq_zero hdiv
    have hsum : n = r.1 + r.2.2.1 * j := by omega
    calc lo % r.2.2.1
        = (lo + r.2.2.1 * (k * i)) % r.2.2.1 := (Nat.add_mul_mod_self_left _ _ _).symm
      _ = n % r.2.2.1 := by rw [hn, hi]; ring_nf
      _ = r.1 % r.2.2.1 := by rw [hsum, Nat.add_mul_mod_self_left]

theorem shiftBy_eq_self {runs : List CaseRun} {n : Nat} (h : ∀ r ∈ runs, ¬ Covers r n) : shiftBy runs n = n := by
  have hnone : (runs.find? fun r => decide (r.1 ≤ n ∧ n ≤ r.2.1 ∧ (n - r.1) % r.2.2.1 = 0)) = none := by
    rw [List.find?_eq_none]
    intro r hr hcovers
    rw [decide_eq_true_iff] at hcovers
    exact h r hr hcovers
  rw [shiftBy, hnone]

theorem shiftBy_of_covers {runs : List CaseRun} {n : Nat} (h : ¬ ∀ r ∈ runs, ¬ Covers r n) :
    ∃ r, (r ∈ runs ∧ Covers r n) ∧ shiftBy runs n = ((n : Int) + r.2.2.2).toNat := by
  rw [shiftBy]
  cases hfind : runs.find? fun r => decide (r.1 ≤ n ∧ n ≤ r.2.1 ∧ (n - r.1) % r.2.2.1 = 0) with
  | none =>
    rw [List.find?_eq_none] at hfind
    exact absurd (fun r hr hcovers => hfind r hr (decide_eq_true hcovers)) h
  | some r =>
    have hcovers := List.find?_some hfind
    rw [decide_eq_true_iff] at hcovers
    exact ⟨r, ⟨List.mem_of_find?_eq_some hfind, hcovers⟩, rfl⟩

/-! ## Code points that are not moved -/

/-- no table moves a code point -/
structure Unmoved (n : Nat) : Prop where
  runs : ∀ r ∈ upperRuns, ¬ Covers r n
  sequences : ∀ e ∈ upperSequences, e.1 ≠ n

/-- no table moves one of the code points from `lo` to `hi` in steps -/
def isClear (lo hi step : Nat) : Bool :=
  upperRuns.all (apart lo hi step) && upperSequences.all fun e => apart lo hi step (e.1, e.1, 1, 0)

theorem unmoved_of_isClear {lo hi step n k : Nat} (h : isClear lo hi step = true) (hn : n = lo + k * step)
    (hle : n ≤ hi) : Unmoved n := by
  rw [isClear, Bool.and_eq_true, List.all_eq_true, List.all_eq_true] at h
  constructor
  · intro r hr
    exact not_covers_of_apart (h.1 r hr) hn hle
  · intro e he heq
    exact not_covers_of_apart (h.2 e he) hn hle (by simp [Covers, heq])

/-- the first code point that a run maps to, the last one, and the distance from one to the next -/
def image (r : CaseRun) : Nat × Nat × Nat :=
  (((r.1 : Int) + r.2.2.2).toNat, ((r.2.1 : Int) + r.2.2.2).toNat, if r.1 = r.2.1 then 0 else r.2.2.1)

theorem isClear_image :
    (upperRuns.all fun r => decide (0 ≤ (r.1 : Int) + r.2.2.2) && isClear (image r).1 (image r).2.1 (image r).2.2) =
      true := by
  decide +kernel

theorem isClear_sequences : (upperSequences.all fun e => e.2.all fun n => isClear n n 0) = true := by
  decide +kernel

theorem unmoved_of_covers {r : CaseRun} (hr : r ∈ upperRuns) {n : Nat} (h : Covers r n) :
    Unmoved ((n : Int) + r.2.2.2).toNat := by
  obtain ⟨hfirst, hlast, hstep⟩ := h
  have hclear := List.all_eq_true.1 isClear_image r hr
  rw [Bool.and_eq_true, decide_eq_true_iff] at hclear
  obtain ⟨hpos, hclear⟩ := hclear
  obtain ⟨k, hk⟩ := Nat.dvd_of_mod_eq_zero hstep
  have hle : ((n : Int) + r.2.2.2).toNat ≤ (image r).2.1 := by
    simp only [image]
    omega
  by_cases hone : r.1 = r.2.1
  · apply unmoved_of_isClear hclear (k := 0) _ hle
    simp only [image]
    omega
  · apply unmoved_of_isClear hclear (k := k) _ hle
    simp only [image, if_neg hone, Nat.mul_comm k]
    omega

/-! ## Characters -/

theorem toUpper_of_ascii : ∀ n < 128, ¬ (0x61 ≤ n ∧ n ≤ 0x7A) → (Char.ofNat n).toUpper = Char.ofNat n := by
  decide +kernel

theorem upperChar_toUpper_of_ascii : ∀ n < 128, upperChar (Char.ofNat n).toUpper = [(Char.ofNat n).toUpper] := by
  decide +kernel

/-- a character that no table moves is its own upper case -/
theorem upperChar_of_unmoved {c : Char} (h : Unmoved c.toNat) : upperChar c = [c] := by
  unfold upperChar
  split
  · rename_i hascii
    have hletter : ¬ (0x61 ≤ c.toNat ∧ c.toNat ≤ 0x7A) := by
      rintro ⟨hfirst, hlast⟩
      exact h.runs (0x61, 0x7A, 1, -32) (by decide) ⟨hfirst, hlast, Nat.mod_one _⟩
    have hupper := toUpper_of_ascii c.toNat hascii hletter
    rw [Char.ofNat_toNat] at hupper
    rw [hupper]
  · have hnone : (upperSequences.find? fun e => e.1 == c.toNat) = none := by
      rw [List.find?_eq_none]
      intro e he heq
      exact h.sequences e he (beq_iff_eq.1 heq)
    rw [hnone, shiftBy_eq_self h.runs, Char.ofNat_toNat]

theorem upperChar_ofNat {n : Nat} (h : Unmoved n) : upperChar (Char.ofNat n) = [Char.ofNat n] := by
  by_cases hvalid : n.isValidChar
  · have hchar : Char.ofNat n = Char.ofNatAux n hvalid := by rw [Char.ofNat, dif_pos hvalid]
    have hto : (Char.ofNat n).toNat = n := by rw [hchar]; rfl
    apply upperChar_of_unmoved
    rwa [hto]
  · -- what is no code point is read as the character of the number zero
    have hzero : Char.ofNat n = Char.ofNat 0 := by
      rw [Char.ofNat, dif_neg hvalid]
      rfl
    rw [hzero]
    exact upperChar_toUpper_of_ascii 0 (by decide)

/-- the characters of an upper case are their own upper case -/
theorem upperChar_of_mem {c d : Char} (h : d ∈ upperChar c) : upperChar d = [d] := by
  by_cases hascii : c.toNat < 128
  · rw [upperChar, if_pos hascii, List.mem_singleton] at h
    have hupper := upperChar_toUpper_of_ascii c.toNat hascii
    rw [Char.ofNat_toNat] at hupper
    rwa [h]
  · rw [upperChar, if_neg hascii] at h
    split at h
    · rename_i e he
      obtain ⟨n, hn, rfl⟩ := List.mem_map.1 h
      have hclear := List.all_eq_true.1 (List.all_eq_true.1 isClear_sequences e (List.mem_of_find?_eq_some he)) n hn
      exact upperChar_ofNat (unmoved_of_isClear hclear (k := 0) (by simp) (Nat.le_refl n))
    · rename_i hnone
      rw [List.mem_singleton] at h
      by_cases hruns : ∀ r ∈ upperRuns, ¬ Covers r c.toNat
      · rw [h, shiftBy_eq_self hruns, Char.ofNat_toNat, upperChar, if_neg hascii, hnone, shiftBy_eq_self hruns,
          Char.ofNat_toNat]
      · obtain ⟨r, hr, hshift⟩ := shiftBy_of_covers hruns
        rw [h, hshift]
        exact upperChar_ofNat (unmoved_of_covers hr.1 hr.2)

/-- **A text in upper case is its own upper case.** -/
theorem upper_upper (s : String) : upper (upper s) = upper s := by
  have hchars : upperChars (upperChars s.toList) = upperChars s.toList := by
    have hself : ∀ cs : List Char, (∀ c ∈ cs, upperChar c = [c]) → upperChars cs = cs := by
      intro cs hcs
      unfold upperChars
      rw [List.flatMap_congr hcs]
      simp
    apply hself
    intro d hd
    obtain ⟨c, -, hc⟩ := List.mem_flatMap.1 hd
    exact upperChar_of_mem hc
  rw [upper, upper, String.toList_ofList, hchars]

end WorkflowGraph.Text
