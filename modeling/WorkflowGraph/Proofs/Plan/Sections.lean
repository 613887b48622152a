import WorkflowGraph.Plan.Reading
import WorkflowGraph.Proofs.Plan.Line
/-
Branch sections are read back as they were written. A written branch is a title, a trigger and a list of steps; its
lines are a heading with its number, the trigger under its label, the label of the processing flow and the numbered
steps. Titles may be empty or look like a field, steps may look like a heading or start with a number of their own; what
they must not hold is a line break and, below the heading, an asterisk or the heading of further requirements.

- `sectionsOf_append`: lines that are no headings belong to the section above them.
- `triggerOf_below`, `flowLines_below`: what the lines below a heading are read as.
- `sectionBranches_written`: the branches of a written text are those written, in order and with all their fields.
-/
namespace WorkflowGraph

namespace Plan

open Text

/-! ## Written branches -/

/-- a trigger or a step as a planner writes it -/
structure IsEntry (s : String) : Prop extends IsLine s where
  ne_empty : s ≠ ""
  noStar : '*' ∉ s.toList
  noStop : contains s "## Additional" = false

/-- a branch as a planner writes it -/
structure WrittenBranch where
  title : String
  trigger : String
  steps : List String
  isLine_title : IsLine title
  isEntry_trigger : IsEntry trigger
  isEntry_steps : ∀ s ∈ steps, IsEntry s

/-- a step with its number -/
def numbered (i : Nat) (step : String) : String := toString i ++ ". " ++ step

theorem toList_numbered (i : Nat) (step : String) :
    (numbered i step).toList = (toString i).toList ++ (['.', ' '] ++ step.toList) := by
  simp [numbered]

namespace WrittenBranch

def heading (b : WrittenBranch) (n : Nat) : String := "### BRANCH " ++ toString n ++ ": " ++ b.title

def numberedSteps (b : WrittenBranch) : List String := b.steps.zipIdx.map fun (step, i) => numbered (i + 1) step

/-- the lines below the heading -/
def below (b : WrittenBranch) : List String :=
  ("**Trigger:** " ++ b.trigger) :: "**Processing Flow:**" :: b.numberedSteps

def lines (b : WrittenBranch) (n : Nat) : List String := b.heading n :: b.below

end WrittenBranch

/-- the lines of some branches, numbered from `k + 1` -/
def writtenLines (bs : List WrittenBranch) (k : Nat) : List String :=
  (bs.zipIdx k).flatMap fun (b, i) => b.lines (i + 1)

/-- the text of some branches, with `n` empty lines at its end -/
def written (bs : List WrittenBranch) (n : Nat) : String :=
  "\n".intercalate (writtenLines bs 0 ++ List.replicate n "")

/-! ## What is written -/

/-- what stands before the first bracket of a step, or all of it when nothing does -/
def headOf (step : String) : String :=
  let head := strip (String.ofList (step.toList.takeWhile (· != '(')))
  if head = "" then step else head

/-- the requirement that a step of a branch stands for -/
def requirementOf (resolver : Resolver) (branchId : Int) (step : String) : Requirement :=
  let answer := (resolver step).1
  Requirement.markMotifs
    ⟨headOf step, step, answer.nodeType, branchId, answer.confidence, false, false, false, some answer⟩

/-- the branch that is written, with its number -/
def WrittenBranch.branch (resolver : Resolver) (b : WrittenBranch) (n : Nat) : PlanBranch :=
  ⟨n, if b.title = "" then "Branch " ++ toString n else b.title, lower b.trigger,
    (b.steps.dropWhile fun step => repeatsTrigger (headOf step)).map (requirementOf resolver n)⟩

/-! ## Headings -/

theorem heading?_eq_none {line : List Char} (h : line.head? ≠ some '#') : heading? line = none := by
  have hdrop : dropLiteral? "### BRANCH ".toList line = none := by
    rw [Option.eq_none_iff_forall_ne_some]
    intro rest hrest
    rw [dropLiteral?_eq_some_iff.1 hrest] at h
    exact h rfl
  rw [heading?, hdrop]

theorem toList_heading (b : WrittenBranch) (n : Nat) :
    (b.heading n).toList = "### BRANCH ".toList ++ ((toString n).toList ++ ':' :: ' ' :: b.title.toList) := by
  simp [WrittenBranch.heading]

/-- the number and the title of a heading are read back -/
theorem heading?_heading (b : WrittenBranch) (n : Nat) :
    heading? (b.heading n).toList = some (n, b.title.toList) := by
  have hdigits : ∀ c ∈ (toString n).toList, isDigit c = true := fun c => isDigit_of_mem_toString
  rw [heading?, dropLiteral?_eq_some_iff.2 (toList_heading b n)]
  simp only [List.takeWhile_append_of_pos hdigits, List.dropWhile_append_of_pos hdigits]
  rw [List.takeWhile_cons_of_neg (by decide), List.dropWhile_cons_of_neg (by decide), List.append_nil]
  obtain ⟨d, ds, hds, -⟩ := exists_digit_cons n
  have hvalue := digitsValue_toString n
  rw [hds] at hvalue ⊢
  simp only [hvalue, b.isLine_title.trim_cons]

/-- lines that are no headings belong to the section above them -/
theorem sectionsOf_append {ls : List (List Char)} (h : ∀ l ∈ ls, heading? l = none) (rest : List (List Char)) :
    sectionsOf (ls ++ rest) = ((sectionsOf rest).1, ls ++ (sectionsOf rest).2) := by
  induction ls with
  | nil => rfl
  | cons l ls ih =>
    rw [List.forall_mem_cons] at h
    rw [List.cons_append, sectionsOf, ih h.2, h.1]
    rfl

/-! ## Below a heading -/

variable (b : WrittenBranch)

/-- the number of a step stands at the start of its line -/
theorem head?_numbered (i : Nat) (step : String) : (numbered i step).toList.head? ≠ some '#' := by
  obtain ⟨d, ds, hds, hdigit⟩ := exists_digit_cons i
  rw [toList_numbered, hds, List.cons_append, List.head?_cons]
  rintro ⟨rfl⟩
  exact absurd hdigit (by decide)

theorem heading?_below {l : String} (h : l ∈ b.below) : heading? l.toList = none := by
  apply heading?_eq_none
  rcases List.mem_cons.1 h with rfl | h
  · simp
  rcases List.mem_cons.1 h with rfl | h
  · simp
  obtain ⟨⟨step, i⟩, -, rfl⟩ := List.mem_map.1 h
  exact head?_numbered (i + 1) step

theorem noBreak_below {l : String} (h : l ∈ b.below) : '\n' ∉ l.toList := by
  rcases List.mem_cons.1 h with rfl | h
  · simpa using b.isEntry_trigger.noBreak
  rcases List.mem_cons.1 h with rfl | h
  · decide
  obtain ⟨⟨step, i⟩, hstep, rfl⟩ := List.mem_map.1 h
  have hentry := b.isEntry_steps step (List.fst_mem_of_mem_zipIdx hstep)
  have hnumber : '\n' ∉ (toString (i + 1)).toList := not_mem_toString (by decide)
  rw [toList_numbered, List.mem_append, not_or]
  exact ⟨hnumber, by simpa using hentry.noBreak⟩

theorem IsEntry.not_infix {s : String} (h : IsEntry s) : ¬ sectionStop <:+: s.toList := by
  have hstop := h.noStop
  rwa [contains, ← Bool.not_eq_true, occurs_iff] at hstop

theorem noStop_below {l : String} (h : l ∈ b.below) : ¬ sectionStop <:+: l.toList := by
  have hcons : sectionStop = '#' :: "# Additional".toList := rfl
  rcases List.mem_cons.1 h with rfl | h
  · rw [String.toList_append, hcons, infix_append_of_head_not_mem (by decide)]
    exact b.isEntry_trigger.not_infix
  rcases List.mem_cons.1 h with rfl | h
  · decide
  obtain ⟨⟨step, i⟩, hstep, rfl⟩ := List.mem_map.1 h
  have hentry := b.isEntry_steps step (List.fst_mem_of_mem_zipIdx hstep)
  have hnumber : '#' ∉ (toString (i + 1)).toList ++ ['.', ' '] := by
    have hdigits : '#' ∉ (toString (i + 1)).toList := not_mem_toString (by decide)
    simpa using hdigits
  rw [toList_numbered, ← List.append_assoc _ ['.', ' '], hcons, infix_append_of_head_not_mem hnumber]
  exact hentry.not_infix

/-- the lines below a heading, with `n` empty lines at their end -/
def belowLines (n : Nat) : List (List Char) := b.below.map String.toList ++ List.replicate n []

theorem forall_belowLines {p : List Char → Prop} (hlines : ∀ l ∈ b.below, p l.toList) (hnil : p []) {n : Nat} :
    ∀ l ∈ belowLines b n, p l := by
  intro l hl
  rcases List.mem_append.1 hl with h | h
  · obtain ⟨s, hs, rfl⟩ := List.mem_map.1 h
    exact hlines s hs
  · obtain rfl := List.eq_of_mem_replicate h
    exact hnil

theorem noBreak_belowLines (n : Nat) : ∀ l ∈ belowLines b n, '\n' ∉ l :=
  forall_belowLines b (fun _ => noBreak_below b) (by decide)

/-- a section is not cut short -/
theorem before_stop_belowLines (n : Nat) :
    before sectionStop ((belowLines b n).flatMap ('\n' :: ·)) = (belowLines b n).flatMap ('\n' :: ·) := by
  have hlines : ∀ l ∈ belowLines b n, ¬ sectionStop <:+: l :=
    forall_belowLines b (fun _ => noStop_below b) (by decide)
  apply before_eq_self
  rw [infix_flatMap_sep_iff (by decide) (by decide)]
  rintro ⟨l, hl, hstop⟩
  exact hlines l hl hstop

/-- the trigger of a written branch is read back in small letters -/
theorem triggerOf_below (n : Nat) : triggerOf ((belowLines b n).flatMap ('\n' :: ·)) = lower b.trigger := by
  have hlines : lines ((belowLines b n).flatMap ('\n' :: ·)) = [] :: belowLines b n :=
    lines_flatMap (noBreak_belowLines b n)
  have hfirst : ("**Trigger:** " ++ b.trigger).toList = "**Trigger:**".toList ++ ' ' :: b.trigger.toList := by
    simp
  have hlabel : labelled? "**Trigger:**".toList ([] :: belowLines b n) = some b.trigger.toList := by
    rw [labelled?, List.findSome?_cons, belowLines, WrittenBranch.below, List.map_cons, List.cons_append,
      List.findSome?_cons, hfirst, afterLabel?_append]
    exact congrArg some b.isEntry_trigger.trim_cons
  rw [triggerOf, hlines, hlabel]
  exact congrArg lower String.ofList_toList

/-- a numbered step is read back -/
theorem flowLine?_numbered {step : String} (h : IsEntry step) (i : Nat) :
    flowLine? (numbered i step).toList = some step.toList := by
  have hstart : (numbered i step).toList.dropWhile isSpaceOrTab = (numbered i step).toList := by
    obtain ⟨d, ds, hds, hdigit⟩ := exists_digit_cons i
    have hd : isSpaceOrTab d = false := by
      rw [isSpaceOrTab, Bool.or_eq_false_iff, beq_eq_false_iff_ne, beq_eq_false_iff_ne]
      constructor
      · rintro rfl
        exact absurd hdigit (by decide)
      · rintro rfl
        exact absurd hdigit (by decide)
    apply dropWhile_eq_self
    rw [toList_numbered, hds]
    rintro c ⟨rfl⟩
    exact hd
  have hnumber := takeNumber?_toString i (' ' :: step.toList)
  have hne : step.toList.isEmpty = false := by
    rw [List.isEmpty_eq_false_iff]
    simpa using h.ne_empty
  rw [flowLine?, hstart, toList_numbered]
  simp only [List.cons_append, List.nil_append, hnumber, h.dropWhile_toList, h.trimRight_toList, hne]
  rfl

/-- the label of the flow is found below the trigger -/
theorem cut?_flowLabel_below (ls : List (List Char)) :
    cut? flowLabel ((("**Trigger:** " ++ b.trigger).toList :: flowLabel :: ls).flatMap ('\n' :: ·)) =
      some ('\n' :: ("**Trigger:** " ++ b.trigger).toList ++ ['\n'], ls.flatMap ('\n' :: ·)) := by
  -- the label ends with an asterisk, and the trigger holds none
  have hlabel : ¬ flowLabel <:+: '\n' :: ("**Trigger:** " ++ b.trigger).toList := by
    intro h
    have hconcat : flowLabel = "**Processing Flow:*".toList ++ ['*'] := rfl
    rw [String.toList_append, ← List.cons_append, hconcat] at h
    have hleft := (infix_append_of_last_not_mem b.isEntry_trigger.noStar).1 h
    revert hleft
    decide
  have hbreak : '\n' ∉ flowLabel := by decide
  have hcut := cut?_append_sep (by decide) hbreak hlabel (flowLabel ++ ls.flatMap ('\n' :: ·))
  rw [cut?_append_self] at hcut
  exact hcut

/-- no step has an asterisk on its line -/
theorem noStar_numberedSteps {l : String} (h : l ∈ b.numberedSteps) : '*' ∉ l.toList := by
  obtain ⟨⟨step, i⟩, hstep, rfl⟩ := List.mem_map.1 h
  have hentry := b.isEntry_steps step (List.fst_mem_of_mem_zipIdx hstep)
  have hnumber : '*' ∉ (toString (i + 1)).toList := not_mem_toString (by decide)
  rw [toList_numbered, List.mem_append, not_or]
  exact ⟨hnumber, by simpa using hentry.noStar⟩

theorem filterMap_flowLine?_numberedSteps :
    (b.numberedSteps.map String.toList).filterMap flowLine? = b.steps.map String.toList := by
  have hread : ∀ p ∈ b.steps.zipIdx, flowLine? (numbered (p.2 + 1) p.1).toList = some p.1.toList :=
    fun p hp => flowLine?_numbered (b.isEntry_steps p.1 (List.fst_mem_of_mem_zipIdx hp)) (p.2 + 1)
  calc (b.numberedSteps.map String.toList).filterMap flowLine?
      = b.steps.zipIdx.filterMap fun p => flowLine? (numbered (p.2 + 1) p.1).toList := by
        rw [WrittenBranch.numberedSteps, List.map_map, List.filterMap_map]
        exact List.filterMap_congr fun _ _ => by simp only [Function.comp_apply]
    _ = b.steps.zipIdx.filterMap fun p => some p.1.toList := List.filterMap_congr hread
    _ = (b.steps.zipIdx.map Prod.fst).map String.toList := by
        rw [List.filterMap_eq_map', List.map_map]
        rfl
    _ = b.steps.map String.toList := by rw [List.zipIdx_map_fst]

/-- the steps of a written branch are read back in order -/
theorem flowLines_below (n : Nat) :
    flowLines ((belowLines b n).flatMap ('\n' :: ·)) = b.steps.map String.toList := by
  let numbered := b.numberedSteps.map String.toList ++ List.replicate n []
  have hbelow : belowLines b n = ("**Trigger:** " ++ b.trigger).toList :: flowLabel :: numbered := rfl
  have hmem : ∀ l ∈ numbered, l ∈ belowLines b n := fun l hl => by simp [hbelow, hl]
  have hstar : ¬ "**".toList <:+: numbered.flatMap ('\n' :: ·) := by
    rw [infix_flatMap_sep_iff (by decide) (by decide)]
    rintro ⟨l, hl, hin⟩
    have hchar : '*' ∈ l := hin.subset (by decide)
    rcases List.mem_append.1 hl with h | h
    · obtain ⟨s, hs, rfl⟩ := List.mem_map.1 h
      exact noStar_numberedSteps b hs hchar
    · rw [List.eq_of_mem_replicate h] at hchar
      cases hchar
  have hlines : lines (numbered.flatMap ('\n' :: ·)) = [] :: numbered :=
    lines_flatMap fun l hl => noBreak_belowLines b n l (hmem l hl)
  rw [flowLines, hbelow, cut?_flowLabel_below]
  simp only [before_eq_self hstar, hlines]
  rw [List.filterMap_cons_none (by decide), List.filterMap_append, filterMap_flowLine?_numberedSteps,
    List.filterMap_replicate_of_none (by decide), List.append_nil]

/-! ## Branches -/

/-- the name of a step is what stands before its first bracket -/
theorem ofList_stepName {step : String} (h : IsLine step) : String.ofList (stepName step.toList) = headOf step := by
  have hhead : String.ofList (trim isBlank (before ['('] step.toList)) =
      strip (String.ofList (step.toList.takeWhile (· != '('))) := by
    rw [before_singleton, strip, String.toList_ofList]
  have hempty : (trim isBlank (before ['('] step.toList)).isEmpty =
      decide (strip (String.ofList (step.toList.takeWhile (· != '('))) = "") := by
    rw [← hhead, Bool.eq_iff_iff, List.isEmpty_iff, decide_eq_true_iff, ← String.toList_inj, String.toList_ofList]
    rfl
  simp only [stepName, hempty, headOf, decide_eq_true_eq, h.trim_toList]
  split
  · exact String.ofList_toList
  · exact hhead

/-- the motifs do not touch the description -/
theorem describe_markMotifs (r : Requirement) :
    { r.markMotifs with description := r.description } = r.markMotifs := by
  simp only [Requirement.markMotifs]

theorem requirement_flowStep (resolver : Resolver) (id : Int) {step : String} (h : IsLine step) :
    (flowStep step.toList).requirement id (resolveStep resolver (flowStep step.toList)).1 =
      requirementOf resolver id step := by
  have hform : flowStep step.toList = ⟨headOf step, step, step, none⟩ := by
    rw [flowStep, ofList_stepName h, String.ofList_toList]
  simp only [hform, Plan.Step.requirement, resolveStep, requirementOf]
  exact describe_markMotifs ⟨headOf step, step, _, id, _, false, false, false, _⟩

/-- the requirements of the steps are those written -/
theorem requirements_flowStep (resolver : Resolver) (id : Int) {steps : List String} (h : ∀ s ∈ steps, IsLine s) :
    requirements resolver id (steps.map fun s => flowStep s.toList) =
      (steps.dropWhile fun step => repeatsTrigger (headOf step)).map (requirementOf resolver id) := by
  induction steps with
  | nil => rfl
  | cons step rest ih =>
    have hname : isTriggerStep (flowStep step.toList).name = repeatsTrigger (headOf step) := by
      rw [isTriggerStep_eq, flowStep, ofList_stepName (h step List.mem_cons_self)]
    have hrest := ih fun s hs => h s (List.mem_cons_of_mem _ hs)
    rw [requirements, elideTriggers] at hrest ⊢
    rw [List.map_cons, List.dropWhile_cons, List.dropWhile_cons, hname]
    split
    · exact hrest
    · rw [← List.map_cons (f := fun s : String => flowStep s.toList), List.map_map]
      exact List.map_congr_left fun s hs => requirement_flowStep resolver id (h s hs)

/-- the branch that a section is read as -/
def sectionBranch (resolver : Resolver) (s : BranchSection) (n : Nat) : PlanBranch :=
  ⟨n, s.name, triggerOf s.body, requirements resolver n s.steps⟩

theorem sectionBranch_written (resolver : Resolver) (n m : Nat) :
    sectionBranch resolver ⟨n, b.title.toList, before sectionStop ((belowLines b m).flatMap ('\n' :: ·))⟩ n =
      b.branch resolver n := by
  have hname : (if b.title.toList.isEmpty then "Branch " ++ toString n else String.ofList b.title.toList) =
      if b.title = "" then "Branch " ++ toString n else b.title := by
    rw [String.ofList_toList]
    congr 1
    rw [List.isEmpty_iff, String.toList_eq_nil_iff]
  have hsteps : (flowLines ((belowLines b m).flatMap ('\n' :: ·))).map flowStep =
      b.steps.map fun s => flowStep s.toList := by
    rw [flowLines_below, List.map_map]
    rfl
  have hlines : ∀ s ∈ b.steps, IsLine s := fun s hs => (b.isEntry_steps s hs).toIsLine
  rw [sectionBranch, before_stop_belowLines, BranchSection.name, BranchSection.steps, hname, triggerOf_below, hsteps,
    requirements_flowStep resolver n hlines]
  rfl

/-! ## Texts -/

/-- the lines of some branches, with `n` empty lines at their end -/
def textLines (bs : List WrittenBranch) (k n : Nat) : List (List Char) :=
  (writtenLines bs k).map String.toList ++ List.replicate n []

/-- the first branch makes a section of its own, with the lines that the next ones leave over -/
theorem sectionsOf_textLines_cons (bs : List WrittenBranch) (k n : Nat) :
    sectionsOf (textLines (b :: bs) k n) =
      (⟨k + 1, b.title.toList,
          (b.below.map String.toList ++ (sectionsOf (textLines bs (k + 1) n)).2).flatMap ('\n' :: ·)⟩ ::
        (sectionsOf (textLines bs (k + 1) n)).1, []) := by
  have hform : textLines (b :: bs) k n =
      (b.heading (k + 1)).toList :: (b.below.map String.toList ++ textLines bs (k + 1) n) := by
    simp [textLines, writtenLines, WrittenBranch.lines, List.zipIdx_cons]
  have hbelow : ∀ l ∈ b.below.map String.toList, heading? l = none := by
    intro l hl
    obtain ⟨s, hs, rfl⟩ := List.mem_map.1 hl
    exact heading?_below b hs
  rw [hform, sectionsOf, sectionsOf_append hbelow, heading?_heading]

/-- empty lines are no sections -/
theorem sectionsOf_empty (n : Nat) : sectionsOf (List.replicate n []) = ([], List.replicate n []) := by
  have hempty : ∀ l ∈ List.replicate n ([] : List Char), heading? l = none := by
    intro l hl
    rw [List.eq_of_mem_replicate hl]
    rfl
  have happend := sectionsOf_append hempty []
  rwa [sectionsOf, List.append_nil] at happend

/-- only the empty lines at the end can be left over -/
theorem sectionsOf_textLines_rest (bs : List WrittenBranch) (k n : Nat) :
    ∃ m, (sectionsOf (textLines bs k n)).2 = List.replicate m [] := by
  cases bs with
  | nil => exact ⟨n, congrArg Prod.snd (sectionsOf_empty n)⟩
  | cons b bs => exact ⟨0, congrArg Prod.snd (sectionsOf_textLines_cons b bs k n)⟩

/-- the sections of some lines are read as the branches written, by induction on the branches -/
theorem sectionBranch_textLines (resolver : Resolver) (bs : List WrittenBranch) (k n : Nat) :
    ((sectionsOf (textLines bs k n)).1.zipIdx k).map
        (fun (s, i) => sectionBranch resolver { s with body := before sectionStop s.body } (i + 1)) =
      (bs.zipIdx k).map fun (b, i) => b.branch resolver (i + 1) := by
  induction bs generalizing k with
  | nil =>
    have hempty : textLines [] k n = List.replicate n [] := rfl
    rw [hempty, sectionsOf_empty]
    rfl
  | cons b bs ih =>
    obtain ⟨m, hm⟩ := sectionsOf_textLines_rest bs (k + 1) n
    rw [sectionsOf_textLines_cons, hm, List.zipIdx_cons, List.zipIdx_cons, List.map_cons, List.map_cons, ih (k + 1)]
    exact congrArg (· :: _) (sectionBranch_written b resolver (k + 1) m)

theorem noBreak_writtenLines (bs : List WrittenBranch) (k : Nat) : ∀ l ∈ writtenLines bs k, '\n' ∉ l.toList := by
  intro l hl
  obtain ⟨⟨b, i⟩, -, hl⟩ := List.mem_flatMap.1 hl
  rcases List.mem_cons.1 hl with rfl | hl
  · have hnumber : '\n' ∉ (toString (i + 1)).toList := not_mem_toString (by decide)
    rw [toList_heading, List.mem_append, List.mem_append, not_or, not_or]
    exact ⟨by decide, hnumber, by simpa using b.isLine_title.noBreak⟩
  · exact noBreak_below b hl

/-- the lines of a written text are those it was put together from -/
theorem lines_written (bs : List WrittenBranch) (n : Nat) (hne : textLines bs 0 n ≠ []) :
    lines (written bs n).toList = textLines bs 0 n :=
  lines_padded hne (noBreak_writtenLines bs 0)

/-- **Branch sections are read back exactly**: a text of written branches is read as these branches, in order and with
the numbers from one on, whatever empty lines end it. -/
theorem sectionBranches_written (resolver : Resolver) (bs : List WrittenBranch) (n : Nat) :
    sectionBranches resolver (written bs n).toList = bs.zipIdx.map fun (b, i) => b.branch resolver (i + 1) := by
  by_cases hne : textLines bs 0 n = []
  · have hnothing : bs = [] ∧ n = 0 := by
      cases bs with
      | nil => simpa [textLines, writtenLines] using hne
      | cons b bs => simp [textLines, writtenLines, WrittenBranch.lines] at hne
    obtain ⟨rfl, rfl⟩ := hnothing
    rfl
  · rw [← sectionBranch_textLines resolver bs 0 n, ← lines_written bs n hne, sectionBranches, branchSections,
      List.zipIdx_map, List.map_map]
    rfl

/-- a branch without a title whose steps look like headings, numbers and fields -/
def imitating : WrittenBranch where
  title := ""
  trigger := "1. Webhook"
  steps := ["Order Received (web)", "Start Trigger", "2. Save (db)", "(see Trigger: below)", "### BRANCH 7: Log"]
  isLine_title := ⟨by decide, by decide⟩
  isEntry_trigger := ⟨⟨by decide, by decide⟩, by decide, by decide, by decide⟩
  isEntry_steps := by
    intro step h
    fin_cases h <;> exact ⟨⟨by decide, by decide⟩, by decide, by decide, by decide⟩

/-- a branch whose title looks like a heading, without steps -/
def titled : WrittenBranch where
  title := "BRANCH 9: **Trigger:** none"
  trigger := "Schedule"
  steps := []
  isLine_title := ⟨by decide, by decide⟩
  isEntry_trigger := ⟨⟨by decide, by decide⟩, by decide, by decide, by decide⟩
  isEntry_steps := fun _ h => absurd h List.not_mem_nil

/-- neither the imitated number nor the imitated headings are taken for what they look like -/
theorem sectionBranches_written_imitating :
    written [imitating, titled] 1 =
        "### BRANCH 1: \n**Trigger:** 1. Webhook\n**Processing Flow:**\n1. Order Received (web)\n2. Start Trigger\n" ++
        "3. 2. Save (db)\n4. (see Trigger: below)\n5. ### BRANCH 7: Log\n" ++
        "### BRANCH 2: BRANCH 9: **Trigger:** none\n**Trigger:** Schedule\n**Processing Flow:**\n" ∧
      (sectionBranches Resolver.standard (written [imitating, titled] 1).toList).map
          (fun b => (b.branchId, b.name, b.triggerType, b.requirements.map fun r => (r.name, r.description))) =
        [(1, "Branch 1", "1. webhook",
          [("2. Save", "2. Save (db)"), ("(see Trigger: below)", "(see Trigger: below)"),
            ("### BRANCH 7: Log", "### BRANCH 7: Log")]),
          (2, "BRANCH 9: **Trigger:** none", "schedule", [])] := by
  refine ⟨by decide +kernel, ?_⟩
  rw [sectionBranches_written]
  decide +kernel

end Plan

end WorkflowGraph
