import WorkflowGraph.Proofs.Prompt
import WorkflowGraph.Proofs.Text.Search
/-
Where a repeated plan is cut off. The cut is at the last blank line before the second header, wherever that line
stands: with none between the headers it may be one before the first header, and then the whole plan is lost, and not
its repetition alone.

- `lastBlankLine?_eq_some`, `lastBlankLine?_eq_none`: what the search for a blank line finds.
- `cutPoint_repeated`: when the cut leaves the first header.
- `cutPoint_lostText`: a text that loses it.
-/
namespace WorkflowGraph.Prompt

open Text

variable {cs part : List Char} {r : Rule} {m f : Match} {stop i j k n p : Nat}

/-! ## Blank lines -/

/-- a blank line begins at an offset and ends at `stop` or before -/
def BlankLine (cs : List Char) (stop i : Nat) : Prop := "\n\n".toList <+: cs.drop i ∧ i + 2 ≤ stop

theorem blankLine_iff : BlankLine cs stop i ↔ "\n\n".toList <+: (cs.take stop).drop i := by
  rw [List.drop_take, List.prefix_take_iff, BlankLine, show "\n\n".toList.length = 2 from rfl]
  exact and_congr_right fun _ => by omega

/-- a blank line before a place is one of the occurrences that are searched -/
theorem BlankLine.mem (h : BlankLine cs stop i) :
    (cs.take stop).drop i ∈ occurrences "\n\n".toList (cs.take stop) ∧ i + 2 ≤ (cs.take stop).length := by
  have hpart := blankLine_iff.1 h
  have hlength := hpart.length_le
  rw [List.length_drop, show "\n\n".toList.length = 2 from rfl] at hlength
  exact ⟨(mem_occurrences_iff (by decide)).2 ⟨hpart, List.drop_suffix _ _⟩, by omega⟩

theorem lastBlankLine?_eq_some (h : lastBlankLine? cs stop = some i) :
    BlankLine cs stop i ∧ ∀ j, BlankLine cs stop j → j ≤ i := by
  obtain ⟨tail, hlast, rfl⟩ := Option.map_eq_some_iff.1 h
  obtain ⟨hpart, hsuffix⟩ := (mem_occurrences_iff (by decide)).1 (List.mem_of_getLast? hlast)
  have htail := hsuffix.length_le
  refine ⟨blankLine_iff.2 ?_, fun j hj => ?_⟩
  · rwa [← List.suffix_iff_eq_drop.1 hsuffix]
  · obtain ⟨hmem, hinside⟩ := hj.mem
    have hshort := le_of_getLast?_occurrences (by decide) hlast hmem
    rw [List.length_drop] at hshort
    omega

theorem lastBlankLine?_eq_none (h : lastBlankLine? cs stop = none) (i : Nat) : ¬ BlankLine cs stop i := by
  intro hi
  have hnil := List.getLast?_eq_none_iff.1 (Option.map_eq_none_iff.1 h)
  exact List.not_mem_nil (hnil ▸ hi.mem.1)

/-- a header and a blank line have no character in common -/
theorem BlankLine.apart (h : BlankLine cs stop i) (hne : part ≠ []) (hpart : '\n' ∉ part)
    (hm : (Pattern.literal part).MatchesAt cs k n) : i + 2 ≤ k ∨ k + n ≤ i := by
  obtain ⟨hpart', rfl⟩ := Pattern.matchesAt_literal.1 hm
  have hline : ∀ j < 2, cs[i + j]? = some '\n' := by
    intro j hj
    have hat := List.prefix_iff_getElem?.1 h.1 j hj
    rw [List.getElem?_drop] at hat
    interval_cases j <;> exact hat
  have hpast : ∀ j, cs[k + j]? = some '\n' → part.length ≤ j := by
    intro j hj
    by_contra hlt
    have hat := List.prefix_iff_getElem?.1 hpart' j (Nat.lt_of_not_le hlt)
    rw [List.getElem?_drop, hj] at hat
    exact hpart (Option.some.inj hat ▸ List.getElem_mem _)
  rcases Nat.lt_or_ge i k with hbefore | hafter
  · by_contra hcommon
    obtain rfl : k = i + 1 := by omega
    exact absurd (List.length_eq_zero_iff.1 (Nat.le_zero.1 (hpast 0 (hline 1 (by decide))))) hne
  · obtain ⟨j, rfl⟩ := Nat.exists_eq_add_of_le hafter
    have := hpast j (hline 0 (by decide))
    omega

/-! ## The cut -/

theorem place_paragraph (hcut : r.cut = .beforeFollowerParagraph) (h : r.place cs m f = p) :
    (0 < p ∧ BlankLine cs f.start p ∧ ∀ j, BlankLine cs f.start j → j ≤ p) ∨
      p = f.start ∧ ∀ j, 0 < j → ¬ BlankLine cs f.start j := by
  unfold Rule.place at h
  rw [hcut] at h
  dsimp only at h
  split at h
  · rename_i blank hblank
    obtain ⟨hline, hlast⟩ := lastBlankLine?_eq_some hblank
    split at h
    · rename_i hpos
      exact Or.inl ⟨h ▸ hpos, h ▸ hline, h ▸ hlast⟩
    · rename_i hstart
      exact Or.inr ⟨h.symm, fun j hj hline' => hstart (hj.trans_le (hlast j hline'))⟩
  · rename_i hnone
    exact Or.inr ⟨h.symm, fun j _ => lastBlankLine?_eq_none hnone j⟩

/-- **Where a repeated plan is cut off.** The cut leaves the first header if a blank line stands between the two
headers, or if none stands before the first one, that at the very start apart; else it is at a blank line before the
first header. -/
theorem cutPoint_repeated (hr : r ∈ rules) (hname : r.name = "repeated-branch-one") (h : r.cutPoint cs = some p) :
    ∃ m f, (Pattern.literal branchOne).first cs = some m ∧ (Pattern.literal branchOne).firstFrom m.stop cs = some f ∧
      p ≤ f.start ∧
      (m.stop ≤ p ↔ (∃ i, m.stop ≤ i ∧ BlankLine cs f.start i) ∨ ∀ i, 0 < i → ¬ BlankLine cs m.start i) ∧
      (p < m.stop → BlankLine cs m.start p) ∧
      (occurs branchOne (cs.take p) = true ↔ m.stop ≤ p) := by
  obtain rfl : r = ⟨"repeated-branch-one", .literal branchOne, some (.literal branchOne),
      .beforeFollowerParagraph⟩ := by
    simp only [rules, List.mem_cons, List.not_mem_nil, or_false] at hr
    rcases hr with rfl | rfl | rfl | rfl | rfl <;> first | rfl | exact absurd hname (by decide)
  obtain ⟨m, f, hm, hf, hplace, -⟩ := (cutPoint_followed rfl).1 h
  obtain ⟨-, ⟨n, hstop, hmatch⟩, -⟩ := Pattern.firstFrom_eq_some (k := 0) hm
  have hlength := ((Pattern.steady_literal (by decide)).toBounded.found (k := 0) hm).1
  have hfollows := (Pattern.firstFrom_eq_some hf).1
  have hapart : ∀ {i stop}, BlankLine cs stop i → i + 2 ≤ m.start ∨ m.stop ≤ i := by
    intro i stop hi
    rw [hstop]
    exact hi.apart (by decide) (by decide) hmatch
  have hoccurs := Pattern.occurs_take_iff (k := p) (by decide) hm
  rcases place_paragraph rfl hplace with ⟨hpos, hline, hlast⟩ | ⟨rfl, hnone⟩
  · have hend := hline.2
    refine ⟨m, f, hm, hf, by omega, ⟨fun hkept => Or.inl ⟨p, hkept, hline⟩, ?_⟩, fun hlost => ?_, hoccurs⟩
    · rintro (⟨i, hi, hbetween⟩ | hno)
      · exact hi.trans (hlast i hbetween)
      · exact (hapart hline).resolve_left fun hbefore => hno p hpos ⟨hline.1, hbefore⟩
    · exact ⟨hline.1, (hapart hline).resolve_right hlost.not_ge⟩
  · refine ⟨m, f, hm, hf, le_rfl, ⟨fun _ => Or.inr fun i hi hbefore => ?_, fun _ => hfollows⟩, ?_, hoccurs⟩
    · exact hnone i hi ⟨hbefore.1, hbefore.2.trans (by omega)⟩
    · exact fun hlost => absurd hfollows hlost.not_ge

/-- two headers with a blank line between them -/
def keptText : List Char := "Intro\n\n### BRANCH 1: A\n\n### BRANCH 1: B".toList

/-- the first header is kept there -/
theorem cutPoint_repeated_keptText : ∃ r ∈ rules, r.name = "repeated-branch-one" ∧ r.cutPoint keptText = some 22 ∧
    ∃ m f, (Pattern.literal branchOne).first keptText = some m ∧
      (Pattern.literal branchOne).firstFrom m.stop keptText = some f ∧ 22 ≤ f.start ∧
      (m.stop ≤ 22 ↔ (∃ i, m.stop ≤ i ∧ BlankLine keptText f.start i) ∨
        ∀ i, 0 < i → ¬ BlankLine keptText m.start i) ∧
      (22 < m.stop → BlankLine keptText m.start 22) ∧
      (occurs branchOne (keptText.take 22) = true ↔ m.stop ≤ 22) := by
  refine ⟨_, .tail _ (.tail _ (.tail _ (.head _))), rfl, by decide +kernel, ?_⟩
  exact cutPoint_repeated (.tail _ (.tail _ (.tail _ (.head _)))) rfl (by decide +kernel)

/-- the same headers on lines that follow each other -/
def lostText : List Char := "Intro\n\n### BRANCH 1: A\n### BRANCH 1: B".toList

/-- **A cut may lose the plan and its repetition**: the only blank line stands before both of them. -/
theorem cutPoint_lostText : ¬ ∀ cs p, ∀ r ∈ rules, r.name = "repeated-branch-one" → r.cutPoint cs = some p →
    ∃ m f, (Pattern.literal branchOne).first cs = some m ∧ (Pattern.literal branchOne).firstFrom m.stop cs = some f ∧
      m.stop ≤ p ∧ p ≤ f.start := by
  intro hall
  obtain ⟨m, f, hm, -, hkept, -⟩ := hall lostText 5 _ (.tail _ (.tail _ (.tail _ (.head _)))) rfl (by decide +kernel)
  have hfirst : (Pattern.literal branchOne).first lostText = some ⟨7, 20⟩ := by decide +kernel
  cases hm.symm.trans hfirst
  exact absurd hkept (by decide)

end WorkflowGraph.Prompt
