import Mathlib.Tactic
import WorkflowGraph.Text.Pattern
/-
Where patterns match. A search finds the first place at which a pattern matches. A pattern that goes on matching however
the text goes on is found in a text wherever it is found in a part of it, and a literal is found at the same place, if
what stands before the part does not begin it.

- `firstFrom_eq_some`, `exists_firstFrom`: what a search finds, and that it finds something.
- `Bounded`, `Steady`: patterns that stay inside the text, and that do not depend on how it goes on.
- `MatchesAt.window`, `first_literal_window`, `occurs_take_iff`: matches in a part of a text.
-/
namespace WorkflowGraph.Text.Pattern

variable {p q : Pattern} {before : Option Char} {cs part pre u post : List Char} {i k n : Nat} {m : Match}

/-! ## Searches -/

/-- the character before a place of a text that has the given one before it -/
def preceding (before : Option Char) (cs : List Char) : Nat → Option Char
  | 0 => before
  | i + 1 => cs[i]?

theorem preceding_cons (before : Option Char) (c : Char) (cs : List Char) (i : Nat) :
    preceding before (c :: cs) (i + 1) = preceding (some c) cs i := by
  cases i <;> rfl

theorem preceding_drop (before : Option Char) (cs : List Char) (k i : Nat) :
    preceding (preceding before cs k) (cs.drop k) i = preceding before cs (k + i) := by
  cases i with
  | zero => rfl
  | succ i => exact List.getElem?_drop

/-- a pattern covers `n` characters from a place of a text on -/
def MatchesAt (p : Pattern) (cs : List Char) (i n : Nat) : Prop := p (preceding none cs i) (cs.drop i) = some n

theorem search_eq_some (h : p.search k before cs = some m) :
    ∃ i n, m = ⟨k + i, k + i + n⟩ ∧ p (preceding before cs i) (cs.drop i) = some n ∧
      ∀ j < i, p (preceding before cs j) (cs.drop j) = none := by
  induction cs generalizing k before with
  | nil =>
    obtain ⟨n, hn, rfl⟩ := Option.map_eq_some_iff.1 h
    exact ⟨0, n, rfl, hn, by simp⟩
  | cons c rest ih =>
    unfold search at h
    split at h
    · rename_i n hn
      cases h
      exact ⟨0, n, rfl, hn, by simp⟩
    · rename_i hnone
      obtain ⟨i, n, rfl, hn, hfirst⟩ := ih h
      refine ⟨i + 1, n, by simp only [Match.mk.injEq]; omega, by rwa [preceding_cons], fun j hj => ?_⟩
      cases j with
      | zero => exact hnone
      | succ j =>
        rw [preceding_cons]
        exact hfirst j (Nat.lt_of_succ_lt_succ hj)

theorem search_eq_none (h : p.search k before cs = none) (hi : i ≤ cs.length) :
    p (preceding before cs i) (cs.drop i) = none := by
  induction cs generalizing k before i with
  | nil =>
    obtain rfl : i = 0 := Nat.le_zero.1 hi
    exact Option.map_eq_none_iff.1 h
  | cons c rest ih =>
    unfold search at h
    split at h
    · cases h
    · rename_i hnone
      cases i with
      | zero => exact hnone
      | succ i =>
        rw [preceding_cons]
        exact ih h (Nat.le_of_succ_le_succ hi)

theorem firstFrom_eq (p : Pattern) (k : Nat) (cs : List Char) :
    p.firstFrom k cs = p.search k (preceding none cs k) (cs.drop k) := by
  cases k <;> rfl

/-- a search finds the first place at which a pattern matches -/
theorem firstFrom_eq_some (h : p.firstFrom k cs = some m) :
    k ≤ m.start ∧ (∃ n, m.stop = m.start + n ∧ p.MatchesAt cs m.start n) ∧
      ∀ i n, k ≤ i → i < m.start → ¬ p.MatchesAt cs i n := by
  rw [firstFrom_eq] at h
  obtain ⟨i, n, rfl, hn, hfirst⟩ := search_eq_some h
  rw [preceding_drop, List.drop_drop] at hn
  refine ⟨Nat.le_add_right k i, ⟨n, rfl, hn⟩, fun j n' hj hlt hmatch => ?_⟩
  obtain ⟨j, rfl⟩ := Nat.exists_eq_add_of_le hj
  have hnone := hfirst j (Nat.lt_of_add_lt_add_left hlt)
  rw [preceding_drop, List.drop_drop] at hnone
  cases hnone.symm.trans hmatch

/-- a search finds something if the pattern matches somewhere -/
theorem exists_firstFrom (h : p.MatchesAt cs i n) (hk : k ≤ i) (hi : i ≤ cs.length) :
    ∃ m, p.firstFrom k cs = some m ∧ m.start ≤ i := by
  obtain ⟨j, rfl⟩ := Nat.exists_eq_add_of_le hk
  cases hfound : p.firstFrom k cs with
  | none =>
    rw [firstFrom_eq] at hfound
    have hnone := search_eq_none hfound (i := j) (by rw [List.length_drop]; omega)
    rw [preceding_drop, List.drop_drop] at hnone
    cases hnone.symm.trans h
  | some m =>
    refine ⟨m, rfl, ?_⟩
    by_contra hlt
    exact (firstFrom_eq_some hfound).2.2 _ n hk (Nat.lt_of_not_le hlt) h

/-! ## Patterns -/

/-- a pattern covers some characters of the text -/
structure Bounded (p : Pattern) : Prop where
  pos : ∀ {before cs n}, p before cs = some n → 0 < n
  le : ∀ {before cs n}, p before cs = some n → n ≤ cs.length

/-- a pattern goes on matching however the text goes on -/
structure Steady (p : Pattern) : Prop extends Bounded p where
  append : ∀ {before cs n}, p before cs = some n → ∀ post, p before (cs ++ post) = some n

theorem literal_eq_some_iff : literal part before cs = some n ↔ part <+: cs ∧ part.length = n := by
  unfold literal
  rw [Option.map_eq_some_iff]
  constructor
  · rintro ⟨rest, hrest, rfl⟩
    exact ⟨⟨rest, (dropLiteral?_eq_some_iff.1 hrest).symm⟩, rfl⟩
  · rintro ⟨⟨rest, hrest⟩, rfl⟩
    exact ⟨rest, dropLiteral?_eq_some_iff.2 hrest.symm, rfl⟩

theorem steady_literal (hne : part ≠ []) : (literal part).Steady where
  pos h := by
    obtain ⟨-, rfl⟩ := literal_eq_some_iff.1 h
    exact List.length_pos_of_ne_nil hne
  le h := by
    obtain ⟨hpart, rfl⟩ := literal_eq_some_iff.1 h
    exact hpart.length_le
  append h post := by
    obtain ⟨hpart, hlength⟩ := literal_eq_some_iff.1 h
    exact literal_eq_some_iff.2 ⟨hpart.trans (List.prefix_append _ post), hlength⟩

theorem andThen_eq_some_iff : p.andThen q before cs = some n ↔
    ∃ k l, p before cs = some k ∧ q (preceding before cs k) (cs.drop k) = some l ∧ k + l = n := by
  unfold andThen
  rw [Option.bind_eq_bind, Option.bind_eq_some_iff]
  constructor
  · rintro ⟨k, hk, h⟩
    obtain ⟨l, hl, hn⟩ := Option.bind_eq_some_iff.1 h
    exact ⟨k, l, hk, by cases k <;> exact hl, Option.some.inj hn⟩
  · rintro ⟨k, l, hk, hl, rfl⟩
    exact ⟨k, hk, Option.bind_eq_some_iff.2 ⟨l, by cases k <;> exact hl, rfl⟩⟩

theorem Bounded.andThen (hp : p.Bounded) (hq : ∀ {before cs n}, q before cs = some n → n ≤ cs.length) :
    (p.andThen q).Bounded where
  pos h := by
    obtain ⟨k, l, hk, -, rfl⟩ := andThen_eq_some_iff.1 h
    exact Nat.add_pos_left (hp.pos hk) l
  le h := by
    obtain ⟨k, l, hk, hl, rfl⟩ := andThen_eq_some_iff.1 h
    have hfirst := hp.le hk
    have hsecond := hq hl
    rw [List.length_drop] at hsecond
    omega

theorem lineEnds_eq_some_iff {least : Nat} : lineEnds least before cs = some n ↔
    before ≠ some '\n' ∧ least ≤ n ∧ (cs.takeWhile (· == '\n')).length = n := by
  unfold lineEnds
  dsimp only
  by_cases hbefore : before = some '\n'
  · simp [hbefore]
  · rw [if_neg (by simpa using hbefore)]
    split
    · simp only [reduceCtorEq, false_iff]
      omega
    · simp only [Option.some.injEq]
      exact ⟨fun h => ⟨hbefore, by omega, h⟩, fun h => h.2.2⟩

/-- a run of line ends that ends inside a text stays as it is however the text goes on -/
theorem lineEnds_append {least : Nat} (h : lineEnds least before cs = some n) (hn : n < cs.length) (post : List Char) :
    lineEnds least before (cs ++ post) = some n := by
  obtain ⟨hbefore, hleast, hlength⟩ := lineEnds_eq_some_iff.1 h
  refine lineEnds_eq_some_iff.2 ⟨hbefore, hleast, ?_⟩
  rw [List.takeWhile_append, if_neg (by omega), hlength]

/-- a run of line ends and what follows it -/
theorem steady_lineEnds_andThen {least : Nat} (hq : q.Steady) : ((lineEnds least).andThen q).Steady where
  pos h := by
    obtain ⟨k, l, -, hl, rfl⟩ := andThen_eq_some_iff.1 h
    exact Nat.add_pos_right k (hq.pos hl)
  le h := by
    obtain ⟨k, l, hk, hl, rfl⟩ := andThen_eq_some_iff.1 h
    have hpos := hq.pos hl
    have hle := hq.le hl
    rw [List.length_drop] at hle
    omega
  append {before cs n} h post := by
    obtain ⟨k, l, hk, hl, rfl⟩ := andThen_eq_some_iff.1 h
    have hpos := hq.pos hl
    have hle := hq.le hl
    rw [List.length_drop] at hle
    have hinside : k < cs.length := by omega
    have hsame : preceding before (cs ++ post) k = preceding before cs k := by
      cases k with
      | zero => rfl
      | succ k => exact List.getElem?_append_left (Nat.lt_of_succ_lt hinside)
    refine andThen_eq_some_iff.2 ⟨k, l, lineEnds_append hk hinside post, ?_, rfl⟩
    rw [hsame, List.drop_append_of_le_length hinside.le]
    exact hq.append hl post

/-! ## Parts of a text -/

theorem Bounded.inside (h : p.Bounded) (hm : p.MatchesAt cs i n) : i < cs.length ∧ i + n ≤ cs.length := by
  have hpos := h.pos hm
  have hle := h.le hm
  rw [List.length_drop] at hle
  omega

/-- what a search finds lies inside the text -/
theorem Bounded.found (h : p.Bounded) (hm : p.firstFrom k cs = some m) : m.start < m.stop ∧ m.stop ≤ cs.length := by
  obtain ⟨-, ⟨n, hstop, hmatch⟩, -⟩ := firstFrom_eq_some hm
  have hpos := h.pos hmatch
  have hinside := (h.inside hmatch).2
  omega

theorem drop_window (pre : List Char) (hi : i ≤ u.length) (post : List Char) :
    (pre ++ u ++ post).drop (pre.length + i) = u.drop i ++ post := by
  rw [List.append_assoc, List.drop_length_add_append, List.drop_append_of_le_length hi]

/-- **A match in a part of a text is one in the text**, unless it stands at the very start of the part. -/
theorem MatchesAt.window (hm : p.MatchesAt u i n) (h : p.Steady) (hi : 0 < i) (pre post : List Char) :
    p.MatchesAt (pre ++ u ++ post) (pre.length + i) n := by
  have hinside := (h.toBounded.inside hm).1
  have hpreceding : preceding none (pre ++ u ++ post) (pre.length + i) = preceding none u i := by
    obtain ⟨j, rfl⟩ := Nat.exists_eq_add_of_le' hi
    show (pre ++ u ++ post)[pre.length + j]? = u[j]?
    rw [List.append_assoc, List.getElem?_append_right (Nat.le_add_right _ _), Nat.add_sub_cancel_left,
      List.getElem?_append_left (Nat.lt_of_succ_lt hinside)]
  rw [MatchesAt, hpreceding, drop_window pre hinside.le post]
  exact h.append hm post

theorem matchesAt_literal : (literal part).MatchesAt cs i n ↔ part <+: cs.drop i ∧ part.length = n :=
  literal_eq_some_iff

/-- a literal that what stands before a part of a text does not begin is found first at the same place -/
theorem first_literal_window (hne : part ≠ []) (hpre : ∀ c ∈ pre, c ∉ part.head?) (hm : (literal part).first u = some m)
    (post : List Char) :
    (literal part).first (pre ++ u ++ post) = some ⟨pre.length + m.start, pre.length + m.stop⟩ := by
  obtain ⟨-, ⟨n, hstop, hmatch⟩, hfirst⟩ := firstFrom_eq_some (k := 0) hm
  have hinside := ((steady_literal hne).toBounded.inside hmatch).2
  obtain ⟨hpart, rfl⟩ := matchesAt_literal.1 hmatch
  have hthere : (literal part).MatchesAt (pre ++ u ++ post) (pre.length + m.start) part.length := by
    rw [matchesAt_literal, drop_window pre (by omega) post]
    exact ⟨hpart.trans (List.prefix_append _ _), rfl⟩
  obtain ⟨m', hm', hle⟩ := exists_firstFrom (k := 0) hthere (Nat.zero_le _) (by simp; omega)
  obtain ⟨-, ⟨n', hstop', hmatch'⟩, -⟩ := firstFrom_eq_some hm'
  obtain ⟨hpart', rfl⟩ := matchesAt_literal.1 hmatch'
  -- no earlier place: before the part nothing begins the literal, and inside it the first place is known
  have hstart : m'.start = pre.length + m.start := by
    rcases Nat.lt_or_ge m'.start pre.length with hbefore | hafter
    · obtain ⟨c, rest, rfl⟩ := List.exists_cons_of_ne_nil hne
      obtain ⟨more, hmore⟩ := hpart'
      have hhead : (pre ++ u ++ post)[m'.start]? = some c := by
        rw [← List.head?_drop, ← hmore]
        rfl
      rw [List.append_assoc, List.getElem?_append_left hbefore] at hhead
      exact absurd rfl (hpre c (List.mem_of_getElem? hhead))
    · obtain ⟨i, hi⟩ := Nat.exists_eq_add_of_le hafter
      rw [hi, drop_window pre (by omega) post] at hpart'
      have hshort : part.length ≤ (u.drop i).length := by
        rw [List.length_drop]
        omega
      have hthere' : (literal part).MatchesAt u i part.length :=
        matchesAt_literal.2 ⟨List.prefix_of_prefix_length_le hpart' (List.prefix_append _ _) hshort, rfl⟩
      have hnot := hfirst i part.length (Nat.zero_le i)
      by_contra hother
      exact hnot (by omega) hthere'
  have hresult : m' = ⟨pre.length + m.start, pre.length + m.stop⟩ := by
    cases m'
    simp only [Match.mk.injEq] at hstart hstop' ⊢
    omega
  exact hresult ▸ hm'

/-- what stands before an offset holds a literal exactly when its first match ends there -/
theorem occurs_take_iff (hne : part ≠ []) (hm : (literal part).first cs = some m) :
    occurs part (cs.take k) = true ↔ m.stop ≤ k := by
  obtain ⟨-, ⟨n, hstop, hmatch⟩, hfirst⟩ := firstFrom_eq_some (k := 0) hm
  obtain ⟨hpart, rfl⟩ := matchesAt_literal.1 hmatch
  rw [occurs_iff]
  constructor
  · rintro ⟨pre, post, hsplit⟩
    have hthere : part <+: (cs.take k).drop pre.length := by
      rw [← hsplit, List.append_assoc, List.drop_left]
      exact List.prefix_append _ _
    rw [List.drop_take, List.prefix_take_iff] at hthere
    have hnot := hfirst pre.length part.length (Nat.zero_le _)
    have hlength := List.length_pos_of_ne_nil hne
    by_contra hlt
    exact hnot (by omega) (matchesAt_literal.2 ⟨hthere.1, rfl⟩)
  · intro hle
    have hthere : part <+: (cs.take k).drop m.start := by
      rw [List.drop_take, List.prefix_take_iff]
      exact ⟨hpart, by omega⟩
    exact hthere.isInfix.trans (List.drop_suffix _ _).isInfix

end WorkflowGraph.Text.Pattern
