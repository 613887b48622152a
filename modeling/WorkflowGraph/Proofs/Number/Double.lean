import Mathlib.Tactic
import WorkflowGraph.Number.Numeric
/-
Rounding never passes a number that a double can hold. Whatever fits is a bound for the rounded value as soon as it is
one for the exact value, and so a sum with something that is not negative is never left of what it started from, however
large that is and however much of the other summand is lost.

- `Double.fits_roundQuotient`: what rounding gives can be held.
- `Double.le_add`: a sum with something that is not negative.
-/
namespace WorkflowGraph

namespace Double

/-! ## Magnitudes -/

/-- the value of one kept bit of a magnitude -/
theorem lt_kept (a : Nat) : a < 2 ^ significantBits * 2 ^ lostBits a := by
  calc a < 2 ^ (a.log2 + 1) := Nat.lt_log2_self
    _ ≤ 2 ^ (significantBits + lostBits a) := Nat.pow_le_pow_right (by decide) (by
        unfold lostBits significantBits; omega)
    _ = 2 ^ significantBits * 2 ^ lostBits a := Nat.pow_add _ _ _

/-- a magnitude that loses bits has all its significant bits -/
theorem kept_le {a : Nat} (h : 0 < lostBits a) : 2 ^ (significantBits - 1) * 2 ^ lostBits a ≤ a := by
  have hne : a ≠ 0 := by
    rintro rfl
    exact absurd h (by decide)
  calc 2 ^ (significantBits - 1) * 2 ^ lostBits a = 2 ^ (significantBits - 1 + lostBits a) := (Nat.pow_add _ _ _).symm
    _ = 2 ^ a.log2 := by
      congr 1
      unfold lostBits significantBits at *
      omega
    _ ≤ a := Nat.log2_self_le hne

theorem lostBits_mono {a b : Nat} (h : a ≤ b) : lostBits a ≤ lostBits b := by
  have hlog : a.log2 ≤ b.log2 := by
    rcases Nat.eq_zero_or_pos a with rfl | hpos
    · exact Nat.zero_le _
    · exact (Nat.le_log2 (by omega)).2 ((Nat.log2_self_le (by omega)).trans h)
  unfold lostBits
  omega

/-- a multiple of a power of two with a factor of no more than the significant bits loses nothing -/
theorem pow_lostBits_dvd {q l : Nat} (h : q ≤ 2 ^ significantBits) : 2 ^ lostBits (q * 2 ^ l) ∣ q * 2 ^ l := by
  rcases Nat.eq_or_lt_of_le h with rfl | hlt
  · -- the factor is one bit beyond the significant ones, and that is the only one
    rw [← Nat.pow_add]
    refine Nat.pow_dvd_pow 2 ?_
    unfold lostBits
    rw [Nat.log2_two_pow]
    omega
  · refine dvd_mul_of_dvd_right (Nat.pow_dvd_pow 2 ?_) q
    rcases Nat.eq_zero_or_pos q with rfl | hpos
    · simp [lostBits, significantBits]
    · have hne : q * 2 ^ l ≠ 0 := by positivity
      have hlt' : q * 2 ^ l < 2 ^ (significantBits + l) := by
        rw [Nat.pow_add]
        exact Nat.mul_lt_mul_of_pos_right hlt (by positivity)
      have hlog := (Nat.log2_lt hne).2 hlt'
      unfold lostBits significantBits at *
      omega

/-- a magnitude that is held is a whole number of any bits kept by a smaller one -/
theorem Fits.dvd {a u : Nat} (hu : Fits u) (h : lostBits a ≤ lostBits u) : 2 ^ lostBits a ∣ u :=
  (Nat.pow_dvd_pow 2 h).trans (Nat.dvd_of_mod_eq_zero hu.2)

/-! ## Rounding to whole bits -/

/-- rounding keeps the kept bits or counts one more; it does so only when something is lost -/
theorem roundQuotient_cases (a : Nat) :
    roundQuotient a 1 = a / 2 ^ lostBits a * 2 ^ lostBits a ∨
      (roundQuotient a 1 = (a / 2 ^ lostBits a + 1) * 2 ^ lostBits a ∧ a % 2 ^ lostBits a ≠ 0) := by
  have hpos : 0 < 2 ^ lostBits a := by positivity
  unfold roundQuotient
  simp only [Nat.div_one, Nat.one_mul, Nat.pow_eq]
  split
  · rename_i hup
    exact Or.inr ⟨rfl, by omega⟩
  · exact Or.inl rfl

/-- a held magnitude below the exact one is below the rounded one -/
theorem le_roundQuotient {a u : Nat} (hu : Fits u) (h : u ≤ a) : u ≤ roundQuotient a 1 := by
  have hkept : u ≤ a / 2 ^ lostBits a * 2 ^ lostBits a := by
    rcases Nat.eq_or_lt_of_le (lostBits_mono h) with heq | hlt
    · obtain ⟨k, rfl⟩ := hu.dvd heq.ge
      rw [Nat.mul_comm]
      exact Nat.mul_le_mul_right _ ((Nat.le_div_iff_mul_le (by positivity)).2 (by rwa [Nat.mul_comm]))
    · -- the exact one has more bits, so that its highest bit alone is above
      have hfull := kept_le (Nat.zero_lt_of_lt hlt)
      calc u ≤ 2 ^ significantBits * 2 ^ lostBits u := (lt_kept u).le
        _ ≤ 2 ^ significantBits * 2 ^ (lostBits a - 1) :=
          Nat.mul_le_mul_left _ (Nat.pow_le_pow_right (by decide) (by omega))
        _ = 2 ^ (significantBits - 1) * 2 ^ lostBits a := by
          rw [← Nat.pow_add, ← Nat.pow_add]
          congr 1
          unfold significantBits
          omega
        _ ≤ a / 2 ^ lostBits a * 2 ^ lostBits a :=
          Nat.mul_le_mul_right _ ((Nat.le_div_iff_mul_le (by positivity)).2 hfull)
  rcases roundQuotient_cases a with hr | ⟨hr, -⟩
  · rwa [hr]
  · rw [hr]
    exact hkept.trans (Nat.mul_le_mul_right _ (Nat.le_succ _))

/-- a held magnitude above the exact one is above the rounded one -/
theorem roundQuotient_le {a u : Nat} (hu : Fits u) (h : a ≤ u) : roundQuotient a 1 ≤ u := by
  rcases roundQuotient_cases a with hr | ⟨hr, hlost⟩
  · rw [hr]
    exact (Nat.div_mul_le_self a _).trans h
  · rw [hr]
    obtain ⟨k, rfl⟩ := hu.dvd (lostBits_mono h)
    rw [Nat.mul_comm]
    refine Nat.mul_le_mul_left _ (Nat.div_lt_of_lt_mul (Nat.lt_of_le_of_ne h ?_))
    -- an exact multiple loses nothing
    intro heq
    exact hlost (Nat.mod_eq_zero_of_dvd ⟨k, heq⟩)

/-- **What rounding gives can be held**, if it is in range. -/
theorem fits_roundQuotient {a : Nat} (h : roundQuotient a 1 < limit) : Fits (roundQuotient a 1) := by
  have hq : a / 2 ^ lostBits a < 2 ^ significantBits := Nat.div_lt_of_lt_mul (by
    rw [Nat.mul_comm]
    exact lt_kept a)
  refine ⟨h, Nat.mod_eq_zero_of_dvd ?_⟩
  rw [Nat.pow_eq]
  rcases roundQuotient_cases a with hr | ⟨hr, -⟩
  · rw [hr]
    exact pow_lostBits_dvd hq.le
  · rw [hr]
    exact pow_lostBits_dvd hq

/-! ## Order -/

theorem lt_iff {x y : Double} {a b : Int} (hx : x.rank? = some a) (hy : y.rank? = some b) : x.lt y = true ↔ a < b := by
  simp [lt, hx, hy]

theorem le_iff {x y : Double} {a b : Int} (hx : x.rank? = some a) (hy : y.rank? = some b) : x.le y = true ↔ a ≤ b := by
  simp [le, hx, hy]

theorem rank?_eq_none {x : Double} (h : x.rank? = none) : x = .nan := by
  cases x with
  | nan => rfl
  | infinite s => cases s <;> exact absurd h (Option.some_ne_none _)
  | negativeZero => exact absurd h (Option.some_ne_none _)
  | finite n hn => exact absurd h (Option.some_ne_none _)

/-- only numbers are smaller than others -/
theorem lt_eq_true {x y : Double} (h : x.lt y = true) : ∃ a b, x.rank? = some a ∧ y.rank? = some b ∧ a < b := by
  cases hx : x.rank? with
  | none => simp [lt, hx] at h
  | some a =>
    cases hy : y.rank? with
    | none => simp [lt, hx, hy] at h
    | some b => exact ⟨a, b, rfl, rfl, (lt_iff hx hy).1 h⟩

/-- the larger of two is one of them, and it is not smaller than either -/
theorem rank?_max {x y : Double} {a : Int} (hx : x.rank? = some a) :
    ∃ b, (x.max y).rank? = some b ∧ a ≤ b ∧ ∀ c, y.rank? = some c → c ≤ b := by
  unfold max
  cases hy : y.rank? with
  | none =>
    have hlt : x.lt y = false := by simp [lt, hx, hy]
    exact ⟨a, by simp [hlt, hx], le_refl a, by simp⟩
  | some c =>
    by_cases hlt : x.lt y = true
    · rw [if_pos hlt]
      exact ⟨c, hy, ((lt_iff hx hy).1 hlt).le, fun c' hc => (Option.some.inj hc).ge⟩
    · rw [if_neg hlt]
      rw [lt_iff hx hy, not_lt] at hlt
      exact ⟨a, hx, le_refl a, fun c' hc => Option.some.inj hc ▸ hlt⟩

/-! ## Sums -/

theorem rank?_ofMagnitude_false (n : Nat) :
    (ofMagnitude false n).rank? = some (if Fits n then (n : Int) else limit) := by
  unfold ofMagnitude
  simp only [Bool.false_eq_true, false_and, if_false, Int.natAbs_natCast]
  split <;> rfl

theorem rank?_ofMagnitude_true (n : Nat) :
    (ofMagnitude true n).rank? = some (if Fits n then -(n : Int) else -limit) := by
  unfold ofMagnitude
  rcases Nat.eq_zero_or_pos n with rfl | hpos
  · decide +kernel
  · rw [if_neg (by omega)]
    simp only [if_true, Int.natAbs_neg, Int.natAbs_natCast]
    split <;> rfl

/-- a held number of units is a bound for the rounded number as for the exact one -/
theorem le_ofUnits {u n : Int} (hu : Fits u.natAbs) (h : u ≤ n) : ∃ b, (ofUnits n).rank? = some b ∧ u ≤ b := by
  have hlimit : (u.natAbs : Int) < limit := by exact_mod_cast hu.1
  unfold ofUnits ofQuotient
  by_cases hn : n < 0
  · -- the exact number is nearer to zero than the bound, and the rounded one as well
    have hle : roundQuotient n.natAbs 1 ≤ u.natAbs := roundQuotient_le hu (by omega)
    have hfits : Fits (roundQuotient n.natAbs 1) := fits_roundQuotient (by omega)
    rw [decide_eq_true hn]
    refine ⟨_, rank?_ofMagnitude_true _, ?_⟩
    rw [if_pos hfits]
    omega
  · rw [decide_eq_false hn]
    refine ⟨_, rank?_ofMagnitude_false _, ?_⟩
    split
    · by_cases hpos : 0 ≤ u
      · have hle := le_roundQuotient hu (a := n.natAbs) (by omega)
        omega
      · omega
    · omega

/-- **A sum with something that is not negative** is never left of what it started from. -/
theorem le_add {x m : Double} {a k : Int} (hx : x.rank? = some a) (hm : m.units? = some k) (hk : 0 ≤ k) :
    ∃ b, (x.add m).rank? = some b ∧ a ≤ b := by
  cases x with
  | nan => cases hx
  | infinite s =>
    cases m with
    | negativeZero => exact ⟨a, hx, le_refl a⟩
    | finite n h => exact ⟨a, hx, le_refl a⟩
    | _ => cases hm
  | negativeZero =>
    cases hx
    cases m with
    | negativeZero => exact ⟨0, rfl, le_refl 0⟩
    | finite n h =>
      cases hm
      exact ⟨k, rfl, hk⟩
    | _ => cases hm
  | finite u hu =>
    cases hx
    cases m with
    | negativeZero => exact ⟨a, rfl, le_refl a⟩
    | finite n h =>
      cases hm
      exact le_ofUnits hu (by omega)
    | _ => cases hm

/-- the double of a whole number that is not negative -/
theorem units?_ofInt? {i : Int} {x : Double} (h : ofInt? i = some x) (hi : 0 ≤ i) : ∃ k, x.units? = some k ∧ 0 ≤ k := by
  have hneg : ¬ (i * one : Int) < 0 := not_lt.2 (Int.mul_nonneg hi (Int.natCast_nonneg _))
  have hunits : ofUnits (i * one) = ofMagnitude false (roundQuotient (i * one : Int).natAbs 1) := by
    rw [ofUnits, ofQuotient, decide_eq_false hneg]
  unfold ofInt? at h
  rw [hunits] at h
  generalize roundQuotient (i * one : Int).natAbs 1 = n at h
  by_cases hfits : Fits n
  · have hfinite : ofMagnitude false n = .finite n (by rwa [Int.natAbs_natCast]) := by
      simp [ofMagnitude, hfits]
    rw [hfinite] at h
    exact ⟨n, by rw [← Option.some.inj h]; rfl, Int.natCast_nonneg n⟩
  · have hinfinite : ofMagnitude false n = .infinite false := by simp [ofMagnitude, hfits]
    rw [hinfinite] at h
    cases h

/-! ## Exactness -/

/-- a magnitude that can be held is its own rounding -/
theorem roundQuotient_of_fits {a : Nat} (h : Fits a) : roundQuotient a 1 = a :=
  Nat.le_antisymm (roundQuotient_le h (Nat.le_refl a)) (le_roundQuotient h (Nat.le_refl a))

/-- so is a number of units -/
theorem units?_ofUnits {n : Int} (h : Fits n.natAbs) : (ofUnits n).units? = some n := by
  unfold ofUnits ofQuotient
  rw [roundQuotient_of_fits h]
  unfold ofMagnitude
  by_cases hn : n < 0
  · have hne : n.natAbs ≠ 0 := by omega
    have hsigned : -(n.natAbs : Int) = n := by omega
    simp only [hn, decide_true, hne, and_false, if_false, if_true, hsigned, dif_pos h]
    rfl
  · have hsigned : (n.natAbs : Int) = n := by omega
    simp only [hn, decide_false, Bool.false_eq_true, false_and, if_false, hsigned, dif_pos h]
    rfl

theorem units?_neg {x : Double} {a : Int} (h : x.units? = some a) : x.neg.units? = some (-a) := by
  cases x with
  | negativeZero =>
    rw [← Option.some.inj h]
    exact units?_ofUnits (n := 0) (by decide +kernel)
  | finite n hn =>
    rw [← Option.some.inj h]
    by_cases hzero : n = 0
    · simp [neg, units?, hzero]
    · simp [neg, units?, hzero]
  | _ => cases h

theorem units?_abs {x : Double} {a : Int} (h : x.units? = some a) : x.abs.units? = some (a.natAbs : Int) := by
  unfold abs
  cases x with
  | negativeZero =>
    rw [← Option.some.inj h]
    have hneg := units?_neg (x := negativeZero) rfl
    simpa [isNegative] using hneg
  | finite n hn =>
    rw [← Option.some.inj h]
    by_cases hneg : n < 0
    · have hsigned : (n.natAbs : Int) = -n := by omega
      simp only [isNegative, hneg, decide_true, if_true, hsigned]
      exact units?_neg rfl
    · have hsigned : (n.natAbs : Int) = n := by omega
      simp only [isNegative, hneg, decide_false, Bool.false_eq_true, if_false, hsigned]
      rfl
  | _ => cases h

/-- sums that can be held are exact -/
theorem units?_add {x y : Double} {a b : Int} (hx : x.units? = some a) (hy : y.units? = some b)
    (h : Fits (a + b).natAbs) : (x.add y).units? = some (a + b) := by
  cases x with
  | negativeZero =>
    rw [← Option.some.inj hx, Int.zero_add, ← hy]
    cases y <;> rfl
  | finite m hm =>
    cases Option.some.inj hx
    cases y with
    | negativeZero =>
      rw [← Option.some.inj hy, Int.add_zero]
      rfl
    | finite n hn =>
      cases Option.some.inj hy
      exact units?_ofUnits h
    | _ => cases hy
  | _ => cases hx

theorem one_pos : (0 : Int) < one := by exact_mod_cast (by decide +kernel : 0 < one)

/-- finite doubles are compared with whole numbers by their units -/
theorem leInt_iff {x : Double} {a i : Int} (hx : x.units? = some a) : x.leInt i = true ↔ a ≤ i * one := by
  cases x with
  | negativeZero =>
    rw [← Option.some.inj hx]
    exact decide_eq_true_iff.trans (mul_nonneg_iff_of_pos_right one_pos).symm
  | finite n hn =>
    rw [← Option.some.inj hx]
    exact decide_eq_true_iff
  | _ => cases hx

theorem rank?_of_units? {x : Double} {a : Int} (h : x.units? = some a) : x.rank? = some a := by
  cases x <;> first | exact h | cases h

/-- whole numbers of no more than the significant bits can be held -/
theorem fits_whole {i : Int} (h : i.natAbs ≤ 2 ^ significantBits) : Fits (i * one).natAbs := by
  obtain ⟨l, hl⟩ : ∃ l, one = 2 ^ l := ⟨1074, by decide +kernel⟩
  have hlimit : 2 ^ significantBits * one < limit := by decide +kernel
  rw [Int.natAbs_mul, Int.natAbs_natCast]
  refine ⟨(Nat.mul_le_mul_right one h).trans_lt hlimit, Nat.mod_eq_zero_of_dvd ?_⟩
  rw [hl, Nat.pow_eq]
  exact pow_lostBits_dvd h

end Double

/-- whole numbers of no more than the significant bits become doubles as they are -/
theorem Numeric.exists_toDouble {i : Int} (h : i.natAbs ≤ 2 ^ Double.significantBits) :
    ∃ x, (Numeric.whole i).toDouble = .ok x ∧ x.units? = some (i * Double.one) := by
  have hfits := Double.fits_whole h
  have hunits := Double.units?_ofUnits hfits
  rw [toDouble, Double.ofInt?]
  generalize Double.ofUnits (i * Double.one) = x at hunits ⊢
  cases x with
  | infinite s => cases hunits
  | _ => exact ⟨_, rfl, hunits⟩

/-- the double of a whole number that is not negative -/
theorem Numeric.units?_toDouble {i : Int} {x : Double} (h : (Numeric.whole i).toDouble = .ok x) (hi : 0 ≤ i) :
    ∃ k, x.units? = some k ∧ 0 ≤ k := by
  cases hx : Double.ofInt? i with
  | none =>
    rw [toDouble, hx] at h
    cases h
  | some y =>
    rw [toDouble, hx] at h
    rw [← Except.ok.inj h]
    exact Double.units?_ofInt? hx hi

end WorkflowGraph
