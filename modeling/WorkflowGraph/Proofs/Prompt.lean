import WorkflowGraph.Prompt
import WorkflowGraph.Proofs.Text.Blank
import WorkflowGraph.Proofs.Text.Pattern
/-
Prompts that are cut back more than once. What a rule cuts off takes its own sign with it, and what is left shows no
sign that the whole text did not show: so each pass leaves fewer rules to apply, and later ones only. The exception is a
text that starts with the gap before a list of integrations: it hides any other gap, until it is trimmed off.

- `cutPoint_window`: a rule that cuts a part of a text cuts the text, and before the end of the part.
- `cutting_cutBack_lt`: every pass leaves fewer rules that cut.
- `normalize_passes`: when one pass is enough, which rules may cut what it leaves, and how many passes there can be.
-/
namespace WorkflowGraph.Prompt

open Text

variable {cs pre u : List Char} {r r' : Rule} {point : Nat}

/-! ## Rules -/

/-- the sign of a list of integrations that blank lines set off -/
def gap : Pattern := (Pattern.lineEnds 3).andThen (.literal "**Required Integrations:**".toList)

def gapName : String := "required-integrations-gap"

/-- what a rule looks for: a text that starts with no blank, and something behind it, or the gap alone -/
inductive Rule.Sign (r : Rule) : Prop
  | followed {c : Char} {rest : List Char} {follower : Pattern} (hvisible : isBlank c = false)
      (hpattern : r.pattern = .literal (c :: rest)) (hfollower : r.follower = some follower)
      (hsteady : follower.Steady)
  | gap (hname : r.name = gapName) (hpattern : r.pattern = Prompt.gap) (hfollower : r.follower = none)

theorem sectionHeading_eq_some_iff {before : Option Char} {n : Nat} : sectionHeading before cs = some n ↔
    (∃ rest, cs = "### BRANCH".toList ++ rest ∧ n = 10) ∨
      ∃ c rest, cs = "## ".toList ++ c :: rest ∧ isCapital c = true ∧ n = 4 := by
  constructor
  · intro h
    unfold sectionHeading at h
    split at h
    · rename_i rest hrest
      exact Or.inl ⟨rest, dropLiteral?_eq_some_iff.1 hrest, (Option.some.inj h).symm⟩
    · split at h
      · rename_i c rest hrest
        obtain ⟨hcapital, hn⟩ := Option.ite_none_right_eq_some.1 h
        exact Or.inr ⟨c, rest, dropLiteral?_eq_some_iff.1 hrest, hcapital, (Option.some.inj hn).symm⟩
      · cases h
  · rintro (⟨rest, rfl, rfl⟩ | ⟨c, rest, rfl, hcapital, rfl⟩)
    · unfold sectionHeading
      rw [dropLiteral?_eq_some_iff.2 rfl]
    · unfold sectionHeading
      rw [show dropLiteral? "### BRANCH".toList ("## ".toList ++ c :: rest) = none from rfl,
        dropLiteral?_eq_some_iff.2 rfl]
      exact if_pos hcapital

theorem steady_sectionHeading : Pattern.Steady sectionHeading where
  pos h := by
    rcases sectionHeading_eq_some_iff.1 h with ⟨rest, -, rfl⟩ | ⟨c, rest, -, -, rfl⟩ <;> decide
  le h := by
    rcases sectionHeading_eq_some_iff.1 h with ⟨rest, rfl, rfl⟩ | ⟨c, rest, rfl, -, rfl⟩
    · rw [List.length_append]
      exact Nat.le_add_right _ _
    · rw [List.length_append]
      exact Nat.add_le_add_left (Nat.succ_pos _) 3
  append h post := by
    rcases sectionHeading_eq_some_iff.1 h with ⟨rest, rfl, rfl⟩ | ⟨c, rest, rfl, hcapital, rfl⟩
    · rw [List.append_assoc]
      exact sectionHeading_eq_some_iff.2 (Or.inl ⟨_, rfl, rfl⟩)
    · rw [List.append_assoc]
      exact sectionHeading_eq_some_iff.2 (Or.inr ⟨c, rest ++ post, rfl, hcapital, rfl⟩)

theorem rules_sign : ∀ r ∈ rules, r.Sign := by
  have hintegrations : requiredIntegrations.Steady := Pattern.steady_literal (by decide)
  have hbranch : (Pattern.literal branchOne).Steady := Pattern.steady_literal (by decide)
  have hheading : ((Pattern.lineEnds 2).andThen sectionHeading).Steady :=
    Pattern.steady_lineEnds_andThen steady_sectionHeading
  simp only [rules, List.forall_mem_cons, List.not_mem_nil, false_imp_iff, implies_true, and_true]
  exact ⟨.followed (by decide) rfl rfl hintegrations, .gap rfl rfl rfl, .followed (by decide) rfl rfl hintegrations,
    .followed (by decide) rfl rfl hbranch, .followed (by decide) rfl rfl hheading⟩

theorem cutPoint_followed {follower : Pattern} (h : r.follower = some follower) : r.cutPoint cs = some point ↔
    ∃ m f, r.pattern.first cs = some m ∧ follower.firstFrom m.stop cs = some f ∧ r.place cs m f = point ∧
      0 < point := by
  unfold Rule.cutPoint
  rw [h]
  simp only [Option.bind_eq_bind, Option.bind_eq_some_iff, Option.map_eq_some_iff, Option.ite_none_right_eq_some,
    Option.some.injEq]
  constructor
  · rintro ⟨m, hm, point', ⟨f, hf, hplace⟩, hpos, rfl⟩
    exact ⟨m, f, hm, hf, hplace, hpos⟩
  · rintro ⟨m, f, hm, hf, hplace, hpos⟩
    exact ⟨m, hm, point, ⟨f, hf, hplace⟩, hpos, rfl⟩

theorem cutPoint_alone (h : r.follower = none) :
    r.cutPoint cs = some point ↔ ∃ m, r.pattern.first cs = some m ∧ m.start = point ∧ 0 < point := by
  unfold Rule.cutPoint
  rw [h]
  simp only [Option.bind_eq_bind, Option.bind_eq_some_iff, Option.ite_none_right_eq_some, Option.some.injEq]
  constructor
  · rintro ⟨m, hm, point', rfl, hpos, rfl⟩
    exact ⟨m, hm, rfl, hpos⟩
  · rintro ⟨m, hm, rfl, hpos⟩
    exact ⟨m, hm, m.start, rfl, hpos, rfl⟩

/-- a rule cuts at its own match or, at the start at most, not behind the start of the following one -/
theorem place_cases (r : Rule) (cs : List Char) (m f : Match) :
    r.cut = .atMatch ∧ r.place cs m f = m.start ∨
      r.cut ≠ .atMatch ∧ r.place cs m f ≤ f.start ∧ (0 < f.start → 0 < r.place cs m f) := by
  unfold Rule.place
  cases r.cut with
  | atMatch => exact Or.inl ⟨rfl, rfl⟩
  | atFollower => exact Or.inr ⟨by decide, Nat.le_refl _, id⟩
  | beforeFollowerParagraph =>
    refine Or.inr ⟨by decide, ?_⟩
    dsimp only
    split
    · rename_i blank hblank
      have hle : blank ≤ f.start := by
        obtain ⟨tail, -, rfl⟩ := Option.map_eq_some_iff.1 hblank
        rw [List.length_take]
        omega
      split
      · rename_i hpos
        exact ⟨hle, fun _ => hpos⟩
      · exact ⟨Nat.le_refl _, id⟩
    · exact ⟨Nat.le_refl _, id⟩

theorem steady_gap : gap.Steady := Pattern.steady_lineEnds_andThen (Pattern.steady_literal (by decide))

/-- a cut takes something off -/
theorem cutPoint_lt (hr : r ∈ rules) (h : r.cutPoint cs = some point) : point < cs.length := by
  cases rules_sign r hr with
  | @followed c rest follower hvisible hpattern hfollower hsteady =>
    obtain ⟨m, f, hm, hf, rfl, -⟩ := (cutPoint_followed hfollower).1 h
    rw [hpattern] at hm
    have hown := (Pattern.steady_literal (List.cons_ne_nil c rest)).toBounded.found (k := 0) hm
    have hnext := hsteady.toBounded.found hf
    rcases place_cases r cs m f with ⟨-, hplace⟩ | ⟨-, hplace, -⟩ <;> omega
  | gap _ hpattern hfollower =>
    obtain ⟨m, hm, rfl, -⟩ := (cutPoint_alone hfollower).1 h
    rw [hpattern] at hm
    have hown := steady_gap.toBounded.found (k := 0) hm
    omega

/-! ## Parts of a text -/

/-- the gap at the start of a text hides every other one -/
theorem cutPoint_of_gap (hpattern : r.pattern = gap) (hfollower : r.follower = none) (h : (gap none cs).isSome = true) :
    r.cutPoint cs = none := by
  obtain ⟨n, hn⟩ := Option.isSome_iff_exists.1 h
  have hthere : gap.MatchesAt cs 0 n := hn
  obtain ⟨m, hm, hstart⟩ := Pattern.exists_firstFrom (k := 0) hthere (Nat.le_refl 0) (Nat.zero_le _)
  rw [Option.eq_none_iff_forall_ne_some]
  intro point hcut
  obtain ⟨m', hm', rfl, hpos⟩ := (cutPoint_alone hfollower).1 hcut
  rw [hpattern] at hm'
  obtain rfl : m = m' := Option.some.inj (hm.symm.trans hm')
  omega

theorem cutPoint_window_followed {c : Char} {rest : List Char} {follower : Pattern} (hvisible : isBlank c = false)
    (hpattern : r.pattern = .literal (c :: rest)) (hfollower : r.follower = some follower) (hsteady : follower.Steady)
    (hpre : ∀ c ∈ pre, isBlank c = true) (hcut : r.cutPoint u = some point) (post : List Char) :
    ∃ point' < pre.length + u.length, r.cutPoint (pre ++ u ++ post) = some point' := by
  obtain ⟨m, f, hm, hf, rfl, hpos⟩ := (cutPoint_followed hfollower).1 hcut
  rw [hpattern] at hm
  have hown := (Pattern.steady_literal (List.cons_ne_nil c rest)).toBounded.found (k := 0) hm
  have hnext := hsteady.toBounded.found hf
  have hbegins : ∀ d ∈ pre, d ∉ (c :: rest).head? := by
    intro d hd hhead
    obtain rfl : c = d := Option.some.inj hhead
    cases (hpre c hd).symm.trans hvisible
  -- the first match is the same one, and the one that follows it stands no later
  have hm' := Pattern.first_literal_window (List.cons_ne_nil c rest) hbegins hm post
  obtain ⟨hafter, ⟨n, -, hthere⟩, -⟩ := Pattern.firstFrom_eq_some hf
  obtain ⟨f', hf', hle⟩ := Pattern.exists_firstFrom (k := pre.length + m.stop)
    (hthere.window hsteady (by omega) pre post) (by omega) (by simp; omega)
  have hafter' := (Pattern.firstFrom_eq_some hf').1
  generalize hmatch : Match.mk (pre.length + m.start) (pre.length + m.stop) = m' at hm'
  have hstart : m'.start = pre.length + m.start := hmatch ▸ rfl
  have hstop : m'.stop = pre.length + m.stop := hmatch ▸ rfl
  have hplace : 0 < r.place (pre ++ u ++ post) m' f' ∧ r.place (pre ++ u ++ post) m' f' < pre.length + u.length := by
    rcases place_cases r u m f with ⟨hmode, hsame⟩ | ⟨hmode, -, -⟩
    · rcases place_cases r (pre ++ u ++ post) m' f' with ⟨-, hplace'⟩ | ⟨hmode', -⟩
      · omega
      · exact absurd hmode hmode'
    · rcases place_cases r (pre ++ u ++ post) m' f' with ⟨hmode', -⟩ | ⟨-, hplace', hpos'⟩
      · exact absurd hmode' hmode
      · exact ⟨hpos' (by omega), by omega⟩
  rw [← hstop] at hf'
  exact ⟨_, hplace.2, (cutPoint_followed hfollower).2 ⟨m', f', hpattern ▸ hm', hf', rfl, hplace.1⟩⟩

theorem cutPoint_window_gap (hpattern : r.pattern = gap) (hfollower : r.follower = none)
    (hcut : r.cutPoint u = some point) (pre post : List Char) :
    (∃ point' < pre.length + u.length, r.cutPoint (pre ++ u ++ post) = some point') ∨
      (gap none (pre ++ u ++ post)).isSome = true := by
  obtain ⟨m, hm, rfl, hpos⟩ := (cutPoint_alone hfollower).1 hcut
  rw [hpattern] at hm
  have hown := steady_gap.toBounded.found (k := 0) hm
  obtain ⟨-, ⟨n, -, hthere⟩, -⟩ := Pattern.firstFrom_eq_some (k := 0) hm
  obtain ⟨m', hm', hle⟩ := Pattern.exists_firstFrom (k := 0) (hthere.window steady_gap hpos pre post) (Nat.zero_le _)
    (by simp; omega)
  rcases Nat.eq_zero_or_pos m'.start with hzero | hpos'
  · obtain ⟨-, ⟨n', -, hstarts⟩, -⟩ := Pattern.firstFrom_eq_some (k := 0) hm'
    rw [hzero] at hstarts
    exact Or.inr (Option.isSome_iff_exists.2 ⟨n', hstarts⟩)
  · exact Or.inl ⟨m'.start, by omega, (cutPoint_alone hfollower).2 ⟨m', hpattern ▸ hm', rfl, hpos'⟩⟩

/-- **A rule that cuts a part of a text cuts the text, and before the end of the part**, unless the text starts with the
gap that the rule looks for. -/
theorem cutPoint_window (hr : r ∈ rules) (hpre : ∀ c ∈ pre, isBlank c = true) (hcut : r.cutPoint u = some point)
    (post : List Char) :
    (∃ point' < pre.length + u.length, r.cutPoint (pre ++ u ++ post) = some point') ∨
      r.cutPoint (pre ++ u ++ post) = none ∧ r.name = gapName ∧ (gap none (pre ++ u ++ post)).isSome = true := by
  cases rules_sign r hr with
  | followed hvisible hpattern hfollower hsteady =>
    exact Or.inl (cutPoint_window_followed hvisible hpattern hfollower hsteady hpre hcut post)
  | gap hname hpattern hfollower =>
    exact (cutPoint_window_gap hpattern hfollower hcut pre post).imp_right fun hstarts =>
      ⟨cutPoint_of_gap hpattern hfollower hstarts, hname, hstarts⟩

/-! ## One pass -/

theorem firstCut_eq_some (h : firstCut cs = some (r, point)) :
    ∃ earlier later, rules = earlier ++ r :: later ∧ (∀ r' ∈ earlier, r'.cutPoint cs = none) ∧
      r.cutPoint cs = some point := by
  obtain ⟨earlier, r', later, hrules, hcut, hnone⟩ := List.findSome?_eq_some_iff.1 h
  obtain ⟨point', hpoint, hpair⟩ := Option.map_eq_some_iff.1 hcut
  cases hpair
  exact ⟨earlier, later, hrules, fun r' hr' => Option.map_eq_none_iff.1 (hnone r' hr'), hpoint⟩

theorem firstCut_eq_none_iff : firstCut cs = none ↔ ∀ r ∈ rules, r.cutPoint cs = none := by
  unfold firstCut
  rw [List.findSome?_eq_none_iff]
  exact forall₂_congr fun r _ => Option.map_eq_none_iff

theorem throughOnLine_le {part : List Char} {before : Option Char} {n : Nat}
    (h : throughOnLine part before cs = some n) : n ≤ cs.length := by
  obtain ⟨⟨front, back⟩, hcut, rfl⟩ := Option.map_eq_some_iff.1 h
  have hlength := congrArg List.length (eq_append_of_cut? hcut)
  have hline := (List.takeWhile_prefix (fun c => c != '\n') (l := cs)).length_le
  simp only [List.length_append] at hlength
  dsimp only
  omega

theorem through_le {c : Char} {before : Option Char} {n : Nat} (h : through c before cs = some n) : n ≤ cs.length := by
  obtain ⟨⟨front, back⟩, hcut, rfl⟩ := Option.map_eq_some_iff.1 h
  have hlength := congrArg List.length (eq_append_of_cut? hcut)
  simp only [List.length_append, List.length_singleton] at hlength
  dsimp only
  omega

theorem throughLastPoint_le {before : Option Char} {n : Nat} (h : throughLastPoint before cs = some n) :
    n ≤ cs.length := by
  unfold throughLastPoint at h
  obtain ⟨-, hn⟩ := Option.ite_none_left_eq_some.1 h
  have hline := (List.takeWhile_prefix (fun c => c != '\n') (l := cs)).length_le
  have hkept := (List.dropWhile_suffix (fun c => c != '.') (l := (cs.takeWhile (· != '\n')).reverse)).length_le
  rw [List.length_reverse] at hkept
  have hlength := Option.some.inj hn
  omega

theorem bounded_endMarkers : ∀ e ∈ endMarkers, e.2.Bounded := by
  have hliteral : ∀ {part : List Char}, part ≠ [] → (Pattern.literal part).Bounded := fun hne =>
    (Pattern.steady_literal hne).toBounded
  simp only [endMarkers, List.forall_mem_cons, List.not_mem_nil, false_imp_iff, implies_true, and_true]
  exact ⟨(hliteral (by decide)).andThen throughOnLine_le, (hliteral (by decide)).andThen through_le,
    ((hliteral (by decide)).andThen through_le).andThen throughLastPoint_le⟩

/-- a closing sentence ends inside the text -/
theorem endMarkerCut_le {name : String} {stop : Nat} (h : endMarkerCut cs = some (name, stop)) : stop ≤ cs.length := by
  have hall : ∀ best ∈ endMarkerCut cs, best.2 ≤ cs.length := by
    unfold endMarkerCut
    refine List.foldlRecOn endMarkers _ (motive := fun best : Option (String × Nat) => ∀ b ∈ best, b.2 ≤ cs.length)
      (by simp) ?_
    rintro best hbest ⟨marker, p⟩ hmarker
    dsimp only
    cases hfound : p.first cs with
    | none => exact hbest
    | some m =>
      dsimp only
      split
      · have hstop := ((bounded_endMarkers _ hmarker).found (k := 0) hfound).2
        rintro b ⟨⟩
        exact hstop
      · exact hbest
  exact hall _ h

/-- a text ends at its closing sentence or at the cut -/
theorem settle_le (cs : List Char) (point : Nat) : (settle cs point).2 ≤ point := by
  unfold settle
  split
  · rename_i hmarker
    exact (endMarkerCut_le hmarker).trans (List.length_take_le _ _)
  · exact Nat.le_refl _

/-- what a pass leaves is a part of the text before the cut, with blanks alone before it -/
theorem cutBack_window (h : firstCut cs = some (r, point)) :
    ∃ pre post, cs = pre ++ cutBack cs ++ post ∧ (∀ c ∈ pre, isBlank c = true) ∧
      pre.length + (cutBack cs).length ≤ point := by
  obtain ⟨pre, post, hsplit, hpre⟩ := exists_trim isBlank (cs.take (settle cs point).2)
  have hcut : cutBack cs = trim isBlank (cs.take (settle cs point).2) := by
    unfold cutBack
    rw [h]
  rw [← hcut] at hsplit
  refine ⟨pre, post ++ cs.drop (settle cs point).2, ?_, hpre, ?_⟩
  · rw [← List.append_assoc, ← hsplit, List.take_append_drop]
  · have hlength := congrArg List.length hsplit
    have hstop := settle_le cs point
    simp only [List.length_take, List.length_append] at hlength
    omega

/-- a text stays as it is exactly when no rule cuts it -/
theorem cutBack_eq_self_iff : cutBack cs = cs ↔ firstCut cs = none := by
  constructor
  · intro hsame
    cases hfirst : firstCut cs with
    | none => rfl
    | some found =>
      obtain ⟨r, point⟩ := found
      obtain ⟨earlier, later, hrules, -, hcut⟩ := firstCut_eq_some hfirst
      obtain ⟨pre, post, -, -, hlength⟩ := cutBack_window hfirst
      have hshort := cutPoint_lt (hrules ▸ List.mem_append_right _ List.mem_cons_self) hcut
      rw [hsame] at hlength
      omega
  · intro hnone
    unfold cutBack
    rw [hnone]

theorem length_cutBack_le (cs : List Char) : (cutBack cs).length ≤ cs.length := by
  cases hfirst : firstCut cs with
  | none => rw [cutBack_eq_self_iff.2 hfirst]
  | some found =>
    obtain ⟨pre, post, hsplit, -, -⟩ := cutBack_window hfirst
    have hlength := congrArg List.length hsplit
    simp only [List.length_append] at hlength
    omega

/-- a rule that cut a text does not cut what is left -/
theorem cutPoint_cutBack_self (h : firstCut cs = some (r, point)) : r.cutPoint (cutBack cs) = none := by
  obtain ⟨earlier, later, hrules, -, hcut⟩ := firstCut_eq_some h
  have hr : r ∈ rules := hrules ▸ List.mem_append_right _ List.mem_cons_self
  obtain ⟨pre, post, hsplit, hpre, hlength⟩ := cutBack_window h
  rw [Option.eq_none_iff_forall_ne_some]
  intro again hagain
  rcases cutPoint_window hr hpre hagain post with ⟨point', hlt, hpoint⟩ | ⟨hnone, -⟩
  · rw [← hsplit, hcut] at hpoint
    cases hpoint
    omega
  · rw [← hsplit, hcut] at hnone
    cases hnone

/-- **What a pass leaves is cut by later rules only**, which would have cut the whole text as well, unless the text
starts with a gap. -/
theorem cutPoint_cutBack (h : firstCut cs = some (r, point)) (hr' : r' ∈ rules)
    (hcut' : r'.cutPoint (cutBack cs) ≠ none) :
    [r, r'].Sublist rules ∧ r'.cutPoint cs ≠ none ∨ r'.name = gapName ∧ (gap none cs).isSome = true := by
  obtain ⟨earlier, later, hrules, hnone, hcut⟩ := firstCut_eq_some h
  obtain ⟨pre, post, hsplit, hpre, hlength⟩ := cutBack_window h
  obtain ⟨again, hagain⟩ := Option.ne_none_iff_exists'.1 hcut'
  have hwhole := cutPoint_window hr' hpre hagain post
  rw [← hsplit] at hwhole
  rcases hwhole with ⟨point', -, hpoint⟩ | ⟨-, hname, hstarts⟩
  · refine Or.inl ⟨?_, by simp [hpoint]⟩
    rw [hrules] at hr'
    rcases List.mem_append.1 hr' with hearlier | hlater
    · cases (hnone r' hearlier).symm.trans hpoint
    · rcases List.mem_cons.1 hlater with rfl | hlater
      · exact absurd (cutPoint_cutBack_self h) hcut'
      · rw [hrules]
        exact ((List.singleton_sublist.2 hlater).cons_cons r).trans (List.sublist_append_right _ _)
  · exact Or.inr ⟨hname, hstarts⟩

/-! ## Several passes -/

/-- how many rules cut a text -/
def cutting (cs : List Char) : Nat := rules.countP fun r => (r.cutPoint cs).isSome

theorem firstCut_eq_none_of_cutting (h : cutting cs = 0) : firstCut cs = none := by
  rw [firstCut_eq_none_iff]
  intro r hr
  simpa using List.countP_eq_zero.1 h r hr

/-- what a pass leaves starts with no gap -/
theorem gap_cutBack (h : firstCut cs ≠ none) : gap none (cutBack cs) = none := by
  rw [Option.eq_none_iff_forall_ne_some]
  intro n hn
  obtain ⟨k, l, hk, -, -⟩ := Pattern.andThen_eq_some_iff.1 hn
  obtain ⟨-, hleast, hlength⟩ := Pattern.lineEnds_eq_some_iff.1 hk
  have hhead : '\n' ∈ (cutBack cs).head? := by
    cases htext : cutBack cs with
    | nil =>
      rw [htext] at hlength
      simp at hlength
      omega
    | cons c rest =>
      by_cases hc : c = '\n'
      · rw [hc]
        rfl
      · rw [htext, List.takeWhile_cons_of_neg (by simpa using hc)] at hlength
        simp at hlength
        omega
  obtain ⟨⟨r, point⟩, hfirst⟩ := Option.ne_none_iff_exists'.1 h
  unfold cutBack at hhead
  rw [hfirst] at hhead
  cases head?_trim hhead

/-- the rule that cuts a text is no more among those that cut what is left -/
theorem cutting_cutBack (h : firstCut cs = some (r, point)) :
    ∃ earlier later, rules = earlier ++ r :: later ∧
      cutting (cutBack cs) = (earlier ++ later).countP fun r => (r.cutPoint (cutBack cs)).isSome := by
  obtain ⟨earlier, later, hrules, -, -⟩ := firstCut_eq_some h
  refine ⟨earlier, later, hrules, ?_⟩
  unfold cutting
  rw [hrules, List.countP_append, List.countP_cons_of_neg (by simp [cutPoint_cutBack_self h]), List.countP_append]

/-- **Every pass leaves fewer rules that cut**, after the first one at least. -/
theorem cutting_cutBack_lt (hgap : gap none cs = none) (h : firstCut cs = some (r, point)) :
    cutting (cutBack cs) < cutting cs := by
  obtain ⟨earlier, later, hrules, hcount⟩ := cutting_cutBack h
  obtain ⟨-, -, -, -, hcut⟩ := firstCut_eq_some h
  have hfewer : (earlier ++ later).countP (fun r => (r.cutPoint (cutBack cs)).isSome) ≤
      (earlier ++ later).countP fun r => (r.cutPoint cs).isSome := by
    refine List.countP_mono_left fun r' hr' hcut' => ?_
    have hmem : r' ∈ rules := by
      rw [hrules]
      rcases List.mem_append.1 hr' with hearlier | hlater
      · exact List.mem_append_left _ hearlier
      · exact List.mem_append_right _ (List.mem_cons_of_mem _ hlater)
    rcases cutPoint_cutBack h hmem (Option.isSome_iff_ne_none.1 hcut') with ⟨-, hbefore⟩ | ⟨-, hstarts⟩
    · exact Option.isSome_iff_ne_none.2 hbefore
    · rw [hgap] at hstarts
      cases hstarts
  have hsplit : cutting cs = (earlier ++ later).countP (fun r => (r.cutPoint cs).isSome) + 1 := by
    unfold cutting
    rw [hrules, List.countP_append, List.countP_cons_of_pos (by simp [hcut]), List.countP_append, Nat.add_assoc]
  omega

/-- as many passes as there are rules that cut are enough, by induction on these -/
theorem firstCut_iterate (hgap : gap none cs = none) {n : Nat} (hn : cutting cs ≤ n) :
    firstCut (cutBack^[n] cs) = none := by
  induction n generalizing cs with
  | zero => exact firstCut_eq_none_of_cutting (Nat.le_zero.1 hn)
  | succ n ih =>
    rw [Function.iterate_succ_apply]
    cases hfirst : firstCut cs with
    | none =>
      have hsame := cutBack_eq_self_iff.2 hfirst
      rw [hsame, Function.iterate_fixed hsame]
      exact hfirst
    | some found =>
      obtain ⟨r, point⟩ := found
      have hlt := cutting_cutBack_lt hgap hfirst
      exact ih (gap_cutBack (by simp [hfirst])) (by omega)

/-- five passes are enough for every text -/
theorem firstCut_iterate_five (cs : List Char) : firstCut (cutBack^[5] cs) = none := by
  rw [Function.iterate_succ_apply]
  cases hfirst : firstCut cs with
  | none =>
    have hsame := cutBack_eq_self_iff.2 hfirst
    rw [hsame, Function.iterate_fixed hsame]
    exact hfirst
  | some found =>
    obtain ⟨r, point⟩ := found
    obtain ⟨earlier, later, hrules, hcount⟩ := cutting_cutBack hfirst
    have hlength : rules.length = (earlier ++ later).length + 1 := by
      rw [hrules]
      simp [Nat.add_assoc]
    have hfew : (earlier ++ later).length = 4 := Nat.succ.inj hlength.symm
    refine firstCut_iterate (gap_cutBack (by simp [hfirst])) ?_
    rw [hcount, ← hfew]
    exact List.countP_le_length

/-! ## Normalizing -/

variable {maxChars : Int}

theorem bound_of_short (h : (cs.length : Int) ≤ maxChars) : bound maxChars cs = cs := by
  unfold bound
  rw [if_neg (by omega)]

theorem length_bound_le (h : 0 < maxChars) (cs : List Char) : ((bound maxChars cs).length : Int) ≤ maxChars := by
  unfold bound
  split
  · rw [takeInt, if_pos h.le, List.length_take]
    omega
  · omega

/-- only the first pass has a bound to keep -/
theorem iterate_normalize (h : 0 < maxChars) (n : Nat) (cs : List Char) :
    (normalize maxChars)^[n + 1] cs = cutBack^[n + 1] (bound maxChars cs) ∧
      (((normalize maxChars)^[n + 1] cs).length : Int) ≤ maxChars := by
  induction n with
  | zero =>
    refine ⟨rfl, ?_⟩
    have hcut := length_cutBack_le (bound maxChars cs)
    have hbound := length_bound_le h cs
    show ((cutBack (bound maxChars cs)).length : Int) ≤ maxChars
    omega
  | succ n ih =>
    obtain ⟨hsame, hshort⟩ := ih
    rw [Function.iterate_succ_apply', Function.iterate_succ_apply' cutBack, ← hsame, normalize, bound_of_short hshort]
    refine ⟨rfl, ?_⟩
    have hcut := length_cutBack_le ((normalize maxChars)^[n + 1] cs)
    omega

/-- **Prompts that are cut back again.** A second pass changes nothing exactly when no rule cuts what the first one
left. The rule that cut in the first pass does not cut again, and neither does an earlier one, unless the text starts
with a gap that hides another one. After five passes no rule cuts any more. -/
theorem normalize_passes (h : 0 < maxChars) (cs : List Char) :
    (normalize maxChars (normalize maxChars cs) = normalize maxChars cs ↔
      ∀ r ∈ rules, r.cutPoint (normalize maxChars cs) = none) ∧
    (∀ r point, firstCut (bound maxChars cs) = some (r, point) →
      r.cutPoint (normalize maxChars cs) = none ∧
        ∀ r' ∈ rules, r'.cutPoint (normalize maxChars cs) ≠ none →
          [r, r'].Sublist rules ∨ r'.name = gapName ∧ (gap none (bound maxChars cs)).isSome = true) ∧
    ∀ r ∈ rules, r.cutPoint ((normalize maxChars)^[5] cs) = none := by
  have hshort : ((normalize maxChars cs).length : Int) ≤ maxChars := (iterate_normalize h 0 cs).2
  refine ⟨?_, fun r point hfirst => ⟨cutPoint_cutBack_self hfirst, fun r' hr' hcut => ?_⟩, ?_⟩
  · rw [← firstCut_eq_none_iff, ← cutBack_eq_self_iff, normalize, bound_of_short hshort]
  · exact (cutPoint_cutBack hfirst hr' hcut).imp_left And.left
  · rw [← firstCut_eq_none_iff, (iterate_normalize h 4 cs).1]
    exact firstCut_iterate_five _

/-- a text with the signs of all rules, each behind what the next rule leaves -/
def stacked : List Char :=
  "## Additional Requirements:".toList ++ "\n\n## A\n\n".toList ++ branchOne ++ "\n\n".toList ++ branchOne ++
    "This comprehensive plan ensures".toList ++ "\n\n**Required Integrations:".toList ++
    "\n\n\n**Required Integrations:**".toList ++ systemWarning ++ "\n\n**Required Integrations:".toList

/-- five passes are needed: each rule cuts in one of them -/
theorem normalize_passes_stacked :
    0 < defaultMaxChars ∧ (∀ r ∈ rules, r.cutPoint ((normalize defaultMaxChars)^[5] stacked) = none) ∧
      (normalize defaultMaxChars)^[4] stacked = "## Additional Requirements:\n\n## A\n\n### BRANCH 1:".toList ∧
      (normalize defaultMaxChars)^[5] stacked = "## Additional Requirements:".toList := by
  have hpos : 0 < defaultMaxChars := by decide
  have hfour : (normalize defaultMaxChars)^[4] stacked =
      "## Additional Requirements:\n\n## A\n\n### BRANCH 1:".toList := by decide +kernel
  refine ⟨hpos, (normalize_passes hpos stacked).2.2, hfour, ?_⟩
  rw [Function.iterate_succ_apply', hfour]
  decide +kernel

/-- **One pass may leave a text that is cut again**: the gap is taken off first, the second branch with it only then. -/
theorem not_idempotent_normalize :
    ¬ ∀ maxChars : Int, 0 < maxChars → ∀ cs, normalize maxChars (normalize maxChars cs) = normalize maxChars cs := by
  intro hall
  have htwice := hall defaultMaxChars (by decide)
    "### BRANCH 1: A\n\n### BRANCH 1: B\n\n\n**Required Integrations:**".toList
  revert htwice
  decide +kernel

end WorkflowGraph.Prompt
