import Mathlib.Order.Bounds.Basic
import WorkflowGraph.NameRegistry
import WorkflowGraph.Proofs.Text.Blank
/-
New names. The least free number is found because there are more candidates than names in use, so a name that the
registry hands out is none of those taken. It is never blank and has no blanks around it, and a wanted name of this kind
that is not taken is handed out as it is.

- `isLeast_leastFree`: the search for a number ends at the least one that is free.
- `due_iff`: the name that a wanted one gets, whatever names are taken.
- `claims_dealt`: names that are handed out one after the other.
-/
namespace WorkflowGraph

/-! ## The least free number -/

/-- the search ends at a free candidate, or all its candidates are in use -/
theorem leastFree_or (candidate : Nat → String) (used : List String) (n fuel : Nat) :
    candidate (leastFree candidate used n fuel) ∉ used ∨ ∀ i ≤ fuel, candidate (n + i) ∈ used := by
  induction fuel generalizing n with
  | zero =>
    by_cases h : candidate n ∈ used
    · right
      intro i hi
      obtain rfl : i = 0 := by omega
      exact h
    · exact Or.inl h
  | succ fuel ih =>
    unfold leastFree
    split
    · rename_i h
      rw [List.contains_iff_mem] at h
      rcases ih (n + 1) with hfree | hall
      · exact Or.inl hfree
      · right
        intro i hi
        cases i with
        | zero => exact h
        | succ j =>
          have hj := hall j (by omega)
          rwa [Nat.add_right_comm] at hj
    · rename_i h
      rw [List.contains_iff_mem] at h
      exact Or.inl h

/-- one candidate more than there are names in use cannot all be names -/
theorem exists_free {candidate : Nat → String} (h : Function.Injective candidate) (used : List String) (n : Nat) :
    ∃ i ≤ used.length, candidate (n + i) ∉ used := by
  by_contra hall
  push Not at hall
  have hnodup : ((List.range (used.length + 1)).map fun i => candidate (n + i)).Nodup :=
    List.nodup_range.map fun i j hij => Nat.add_left_cancel (h hij)
  have hsub : ((List.range (used.length + 1)).map fun i => candidate (n + i)) ⊆ used := by
    intro s hs
    obtain ⟨i, hi, rfl⟩ := List.mem_map.1 hs
    exact hall i (by rw [List.mem_range] at hi; omega)
  have hlen := (List.subperm_of_subset hnodup hsub).length_le
  rw [List.length_map, List.length_range] at hlen
  omega

/-- the least free candidate is not in use -/
theorem leastFree_not_mem {candidate : Nat → String} {used : List String} (h : Function.Injective candidate) (n : Nat) :
    candidate (leastFree candidate used n used.length) ∉ used := by
  rcases leastFree_or candidate used n used.length with hfree | hall
  · exact hfree
  · obtain ⟨i, hi, hfree⟩ := exists_free h used n
    exact absurd (hall i hi) hfree

theorem le_leastFree (candidate : Nat → String) (used : List String) (n fuel : Nat) :
    n ≤ leastFree candidate used n fuel := by
  induction fuel generalizing n with
  | zero => exact Nat.le_refl n
  | succ fuel ih =>
    unfold leastFree
    split
    · exact Nat.le_of_succ_le (ih (n + 1))
    · exact Nat.le_refl n

/-- the search passes over candidates in use only -/
theorem mem_of_lt_leastFree {candidate : Nat → String} {used : List String} {n fuel k : Nat} (hn : n ≤ k)
    (hk : k < leastFree candidate used n fuel) : candidate k ∈ used := by
  induction fuel generalizing n with
  | zero => exact absurd hn (Nat.not_le_of_lt hk)
  | succ fuel ih =>
    unfold leastFree at hk
    split at hk
    · rename_i h
      rcases Nat.eq_or_lt_of_le hn with rfl | hlt
      · exact List.contains_iff_mem.1 h
      · exact ih hlt hk
    · exact absurd hn (Nat.not_le_of_lt hk)

/-- **The search ends at the least number whose candidate is free.** -/
theorem isLeast_leastFree {candidate : Nat → String} {used : List String} (h : Function.Injective candidate) (n : Nat) :
    IsLeast {k | n ≤ k ∧ candidate k ∉ used} (leastFree candidate used n used.length) := by
  refine ⟨⟨le_leastFree candidate used n _, leastFree_not_mem h n⟩, ?_⟩
  rintro k ⟨hn, hfree⟩
  by_contra hlt
  exact hfree (mem_of_lt_leastFree hn (Nat.lt_of_not_le hlt))

/-- the digits of a number tell the number -/
theorem toString_injective : Function.Injective (toString : Nat → String) := by
  intro a b h
  have hdigits : Nat.toDigits 10 a = Nat.toDigits 10 b := by
    simpa only [Nat.toString_eq_repr, Nat.toList_repr] using congrArg String.toList h
  have hvalue := congrArg (fun digits => Nat.ofDigitChars 10 digits 0) hdigits
  simpa only [Nat.ofDigitChars_toDigits (by decide : 1 < 10) (by decide : 10 ≤ 10)] using hvalue

namespace NameRegistry

/-! ## Names that are handed out -/

theorem numbered_injective (base : String) : Function.Injective (numbered base) := by
  intro a b h
  exact toString_injective ((String.append_right_inj _).1 h)

/-- the name that is handed out is not taken -/
theorem freshName_not_mem (r : NameRegistry) (wanted : String) : r.freshName wanted ∉ r.taken := by
  unfold freshName
  dsimp only
  split
  · exact leastFree_not_mem (numbered_injective _) 2
  · rename_i h
    rwa [List.contains_iff_mem] at h

theorem baseName_not_blank (wanted : String) : Text.isBlankText (baseName wanted) = false := by
  unfold baseName
  dsimp only
  by_cases h : (Text.strip (if wanted.isEmpty then "Node" else wanted)).isEmpty = true
  · rw [if_pos h]
    rfl
  · rw [if_neg h]
    exact Text.isBlankText_strip (Bool.not_eq_true _ ▸ h)

/-- the name that is handed out is not blank -/
theorem freshName_not_blank (r : NameRegistry) (wanted : String) : Text.isBlankText (r.freshName wanted) = false := by
  unfold freshName
  dsimp only
  split
  · rw [numbered, String.append_assoc]
    exact Text.isBlankText_append (baseName_not_blank wanted) _
  · exact baseName_not_blank wanted

theorem freshName_ne_empty (r : NameRegistry) (wanted : String) : r.freshName wanted ≠ "" :=
  Text.ne_empty_of_not_blank (r.freshName_not_blank wanted)

theorem strip_baseName (wanted : String) : Text.strip (baseName wanted) = baseName wanted := by
  unfold baseName
  dsimp only
  by_cases h : (Text.strip (if wanted.isEmpty then "Node" else wanted)).isEmpty = true
  · rw [if_pos h]
    decide +kernel
  · rw [if_neg h]
    exact Text.strip_strip _

/-- the name that is handed out has no blanks around it -/
theorem strip_freshName (r : NameRegistry) (wanted : String) :
    Text.strip (r.freshName wanted) = r.freshName wanted := by
  have hne : baseName wanted ≠ "" := Text.ne_empty_of_not_blank (baseName_not_blank wanted)
  unfold freshName
  dsimp only
  split
  · exact Text.strip_append (strip_baseName wanted) hne (Text.strip_toString _) (Text.toString_ne_empty _) " "
  · exact strip_baseName wanted

/-- a proper name that is not taken is handed out as it is -/
theorem freshName_of_new {r : NameRegistry} {name : String} (hne : name ≠ "") (hstrip : Text.strip name = name)
    (hnew : name ∉ r.taken) : r.freshName name = name := by
  have hempty : name.isEmpty = false := by simpa using hne
  have hbase : baseName name = name := by
    simp [baseName, hempty, hstrip]
  rw [← List.contains_iff_mem, Bool.not_eq_true] at hnew
  simp only [freshName, hbase, hnew, Bool.false_eq_true, if_false]

/-! ## Names one after the other -/

/-- the wanted name without the blanks around it, a general name when it is blank -/
def bareName (wanted : String) : String := if Text.isBlankText wanted then "Node" else Text.strip wanted

theorem baseName_eq (wanted : String) : baseName wanted = bareName wanted := by
  unfold bareName
  by_cases hblank : Text.isBlankText wanted = true
  · rw [if_pos hblank]
    by_cases hempty : wanted.isEmpty = true
    · rw [baseName, if_pos hempty]
      decide +kernel
    · have hstrip : Text.strip wanted = "" := Text.strip_eq_empty_iff.2 hblank
      rw [baseName, if_neg hempty, hstrip]
      rfl
  · rw [if_neg hblank]
    rw [Bool.not_eq_true] at hblank
    have hempty : wanted.isEmpty = false := Text.isEmpty_eq_false_of_not_blank hblank
    have hstrip : (Text.strip wanted).isEmpty = false := by simpa using Text.strip_ne_empty hblank
    simp only [baseName, hempty, hstrip, Bool.false_eq_true, if_false]

/-- the name that is due to a wanted one when some names are taken: the bare name if it is free, else the bare name with
the least number from two on that makes it free -/
inductive Due (taken : List String) (wanted : String) : String → Prop
  | bare (free : bareName wanted ∉ taken) : Due taken wanted (bareName wanted)
  | numbered {n : Nat} (clash : bareName wanted ∈ taken)
      (least : IsLeast {k | 2 ≤ k ∧ numbered (bareName wanted) k ∉ taken} n) :
      Due taken wanted (numbered (bareName wanted) n)

theorem Due.not_mem {taken : List String} {wanted name : String} (h : Due taken wanted name) : name ∉ taken := by
  cases h with
  | bare free => exact free
  | numbered _ least => exact least.1.2

theorem Due.unique {taken : List String} {wanted name name' : String} (h : Due taken wanted name)
    (h' : Due taken wanted name') : name = name' := by
  cases h with
  | bare free =>
    cases h' with
    | bare => rfl
    | numbered clash => exact absurd clash free
  | numbered clash least =>
    cases h' with
    | bare free => exact absurd clash free
    | numbered _ least' => rw [least.unique least']

/-- the registry hands out the name that is due -/
theorem due_freshName (r : NameRegistry) (wanted : String) : Due r.taken wanted (r.freshName wanted) := by
  unfold freshName
  rw [baseName_eq]
  dsimp only
  split
  · rename_i h
    exact .numbered (List.contains_iff_mem.1 h) (isLeast_leastFree (numbered_injective _) 2)
  · rename_i h
    exact .bare fun hmem => h (List.contains_iff_mem.2 hmem)

theorem due_iff {r : NameRegistry} {wanted name : String} : Due r.taken wanted name ↔ name = r.freshName wanted := by
  constructor
  · exact fun h => h.unique (r.due_freshName wanted)
  · rintro rfl
    exact r.due_freshName wanted

/-- the names that some wanted ones get one after the other, and the registry with all of them taken -/
def claims (r : NameRegistry) : List String → List String × NameRegistry
  | [] => ([], r)
  | wanted :: more =>
    let (name, r) := r.claim wanted
    let (names, r) := r.claims more
    (name :: names, r)

theorem claims_cons (r : NameRegistry) (wanted : String) (more : List String) :
    r.claims (wanted :: more) = (r.freshName wanted :: ((r.take (r.freshName wanted)).claims more).1,
      ((r.take (r.freshName wanted)).claims more).2) := rfl

/-- each name is due to the wanted one when the names before it are taken as well -/
inductive Dealt : List String → List String → List String → Prop
  | nil (taken : List String) : Dealt taken [] []
  | cons {taken : List String} {wanted name : String} {more names : List String} (due : Due taken wanted name)
      (rest : Dealt (name :: taken) more names) : Dealt taken (wanted :: more) (name :: names)

theorem dealt_iff {r : NameRegistry} {wanted names : List String} :
    Dealt r.taken wanted names ↔ names = (r.claims wanted).1 := by
  induction wanted generalizing r names with
  | nil =>
    constructor
    · rintro ⟨⟩
      rfl
    · rintro rfl
      exact .nil _
  | cons w more ih =>
    rw [claims_cons]
    constructor
    · rintro (_ | ⟨due, rest⟩)
      obtain rfl := due_iff.1 due
      rw [ih (r := r.take _) |>.1 rest]
    · rintro rfl
      exact .cons (r.due_freshName w) ((ih (r := r.take _)).2 rfl)

theorem mem_taken_claims {r : NameRegistry} {wanted : List String} {s : String} :
    s ∈ (r.claims wanted).2.taken ↔ s ∈ r.taken ∨ s ∈ (r.claims wanted).1 := by
  induction wanted generalizing r with
  | nil => simp [claims]
  | cons w more ih =>
    rw [claims_cons, ih, take, List.mem_cons, List.mem_cons, or_assoc, or_left_comm]

/-- names that are dealt are new and distinct -/
theorem Dealt.fresh {taken wanted names : List String} (h : Dealt taken wanted names) :
    names.Nodup ∧ ∀ s ∈ names, s ∉ taken := by
  induction h with
  | nil => simp
  | cons due rest ih =>
    obtain ⟨hnodup, hnew⟩ := ih
    refine ⟨List.nodup_cons.2 ⟨fun hmem => hnew _ hmem List.mem_cons_self, hnodup⟩, ?_⟩
    refine List.forall_mem_cons.2 ⟨due.not_mem, fun s hs hmem => ?_⟩
    exact hnew s hs (List.mem_cons_of_mem _ hmem)

/-- a numbered name is longer than its base -/
theorem numbered_ne (base : String) (n : Nat) : numbered base n ≠ base := by
  intro h
  have hlength := congrArg String.length h
  have hblank : " ".length = 1 := rfl
  rw [numbered, String.length_append, String.length_append] at hlength
  omega

/-- a name that is taken has a free number soon: no more numbers are tried than names are taken -/
theorem exists_isLeast_numbered {base : String} {taken : List String} (clash : base ∈ taken) :
    ∃ n ≤ taken.length + 1, IsLeast {k | 2 ≤ k ∧ numbered base k ∉ taken} n := by
  -- the base itself is the first candidate, and no number gives it again
  have hinjective : Function.Injective fun i => if i = 0 then base else numbered base (i + 1) := by
    intro i j hij
    by_cases hi : i = 0 <;> by_cases hj : j = 0 <;> simp only [hi, hj, if_true, if_false] at hij
    · rw [hi, hj]
    · exact absurd hij.symm (numbered_ne _ _)
    · exact absurd hij (numbered_ne _ _)
    · exact Nat.succ_injective (numbered_injective _ hij)
  obtain ⟨i, hi, hfree⟩ := exists_free hinjective taken 0
  rw [Nat.zero_add] at hfree
  have hpos : i ≠ 0 := by
    rintro rfl
    exact hfree clash
  rw [if_neg hpos] at hfree
  have hleast : IsLeast {k | 2 ≤ k ∧ numbered base k ∉ taken} _ := isLeast_leastFree (numbered_injective base) 2
  exact ⟨_, (hleast.2 ⟨by omega, hfree⟩).trans (by omega), hleast⟩

/-- **Names that are handed out one after the other**: each one is due to its wanted name, which is found among the
first candidates; none was taken before, no two are the same, and afterwards just these are taken as well. -/
theorem claims_dealt (r : NameRegistry) (wanted : List String) :
    (∀ names, (r.claims wanted).1 = names ↔ Dealt r.taken wanted names) ∧
      (∀ base ∈ r.taken, ∃ n ≤ r.taken.length + 1, IsLeast {k | 2 ≤ k ∧ numbered base k ∉ r.taken} n) ∧
      (r.claims wanted).1.Nodup ∧ (∀ s ∈ (r.claims wanted).1, s ∉ r.taken) ∧
      ∀ s, s ∈ (r.claims wanted).2.taken ↔ s ∈ r.taken ∨ s ∈ (r.claims wanted).1 := by
  have hdealt : Dealt r.taken wanted (r.claims wanted).1 := dealt_iff.2 rfl
  refine ⟨fun names => ?_, fun base => exists_isLeast_numbered, hdealt.fresh.1, hdealt.fresh.2, fun s => mem_taken_claims⟩
  rw [dealt_iff, eq_comm]

/-- wanted names that look like numbered ones -/
example : (claims ⟨["Send"]⟩ ["Send 2", " Send ", "Send", "Send 2", " "]).1 =
    ["Send 2", "Send 3", "Send 4", "Send 2 2", "Node"] := by
  decide +kernel

end NameRegistry

end WorkflowGraph
