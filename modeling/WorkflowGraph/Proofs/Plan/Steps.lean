import WorkflowGraph.Plan.Reading
import WorkflowGraph.Proofs.Plan.Line
/-
Numbered steps are read back as they were written. A written step is a name and, each if it is given, a node type and a
description; its lines are the name between double asterisks after its number, and the type and the description under
their labels. Names and descriptions may look like a number or like a label; what they must not hold is a line break or
an asterisk.

- `details_append`: the lines below a step describe it up to the next number.
- `boldSteps_textOf`: the steps on some lines are those written.
- `stepBranches_written`: the one branch of a written text has the steps that do not repeat the trigger, in order and with
  all their fields.
-/
namespace WorkflowGraph

namespace Plan

open Text

/-! ## Written steps -/

/-- the name, the node type or the description of a step as a planner writes it -/
structure IsField (s : String) : Prop extends IsLine s where
  ne_empty : s ≠ ""
  noStar : '*' ∉ s.toList

/-- a step as a planner writes it -/
structure WrittenStep where
  name : String
  type : Option String
  description : Option String
  isField_name : IsField name
  isField_type : ∀ t ∈ type, IsField t ∧ '`' ∉ t.toList
  isField_description : ∀ d ∈ description, IsField d

def typeLabel : String := "**Node Type:**"

def descriptionLabel : String := "**Node:**"

/-- a line below a step, with a label and what it says -/
def detail (label text : String) : String := "   - " ++ label ++ " " ++ text

namespace WrittenStep

def heading (s : WrittenStep) (k : Nat) : String := toString k ++ ". **" ++ s.name ++ "**"

/-- the lines below the heading -/
def below (s : WrittenStep) : List String :=
  (s.type.map (detail typeLabel)).toList ++ (s.description.map (detail descriptionLabel)).toList

def lines (s : WrittenStep) (k : Nat) : List String := s.heading k :: s.below

end WrittenStep

/-- the lines of some steps, numbered from `k + 1` -/
def stepLines (ss : List WrittenStep) (k : Nat) : List String := (ss.zipIdx k).flatMap fun (s, i) => s.lines (i + 1)

/-- the text of some steps, with `n` empty lines at its end -/
def writtenSteps (ss : List WrittenStep) (n : Nat) : String :=
  "\n".intercalate (stepLines ss 0 ++ List.replicate n "")

/-! ## What is written -/

namespace WrittenStep

/-- the name and the description, if there is one, joined by a blank -/
def text (s : WrittenStep) : String :=
  match s.description with
  | some d => s.name ++ " " ++ d
  | none => s.name

/-- the type that is given, for certain, or else what the resolver answers -/
def resolution (resolver : Resolver) (s : WrittenStep) : Resolution :=
  match s.type with
  | some t =>
    ⟨Parameters.canonicalType t, .double (Double.ofNat 1), "Explicit node type in prompt", [], .explicit⟩
  | none => (resolver s.text).1

/-- the requirement that a step stands for -/
def requirement (resolver : Resolver) (s : WrittenStep) : Requirement :=
  let answer := s.resolution resolver
  { Requirement.markMotifs
      ⟨s.name, s.text, answer.nodeType, 1, answer.confidence, false, false, false, some answer⟩ with
    description := s.description.getD s.name }

end WrittenStep

/-- the steps after those at the start that only repeat the trigger -/
def remaining (ss : List WrittenStep) : List WrittenStep := ss.dropWhile fun s => repeatsTrigger s.name

/-! ## Lines below a step -/

/-- a line below a step without the blanks before it -/
def bare (label text : String) : List Char := '-' :: ' ' :: (label.toList ++ ' ' :: text.toList)

theorem trim_detail (label : String) {text : String} (h : IsField text) :
    trim isBlank (detail label text).toList = bare label text := by
  have hblanks : (detail label text).toList = ' ' :: ' ' :: ' ' :: bare label text := by simp [detail, bare]
  have hleft : trimLeft isBlank (detail label text).toList = bare label text := by
    rw [hblanks]
    rfl
  rw [trim, hleft, trimRight, dropWhile_eq_self, List.reverse_reverse]
  -- the line ends as its text does
  have hne : text.toList ≠ [] := by simpa using h.ne_empty
  intro c hc
  rw [List.head?_reverse] at hc
  apply (strip_eq_self_iff.1 h.stripped).2 c
  rw [List.getLast?_eq_some_getLast hne]
  simpa [bare, List.getLast?_append, List.getLast?_cons, List.getLast?_eq_some_getLast hne] using hc

/-- a line below a step starts with no number -/
theorem takeNumber?_bare (label text : String) : takeNumber? (bare label text) = none := by
  have hdigit : isDigit '-' = false := by decide
  rw [takeNumber?, bare, List.takeWhile_cons_of_neg (by rw [hdigit]; exact Bool.false_ne_true)]

/-- what a line says under its label is read -/
theorem afterLabel?_bare {label : String} (hlabel : label.toList.head? = some '*') (text : String) :
    afterLabel? label.toList (bare label text) = some (' ' :: text.toList) := by
  have hcut := cut?_append_self label.toList (' ' :: text.toList)
  obtain ⟨rest, hrest⟩ := List.head?_eq_some_iff.1 hlabel
  rw [bare]
  rw [hrest] at hcut ⊢
  rw [afterLabel?, cut?_cons_of_ne (by decide), cut?_cons_of_ne (by decide), hcut]
  rfl

/-- a line says nothing under another label -/
theorem afterLabel?_bare_other {label other text : String} {l : List Char} (hother : other.toList = l ++ ['*'])
    (hnot : ¬ other.toList <:+: '-' :: ' ' :: label.toList) (h : IsField text) :
    afterLabel? other.toList (bare label text) = none := by
  have hstar : '*' ∉ ' ' :: text.toList := by simpa using h.noStar
  have hcut : cut? other.toList (bare label text) = none := by
    -- the label ends with an asterisk, and the text holds none
    rw [hother] at hnot ⊢
    rw [cut?_eq_none_iff, bare, ← List.cons_append, ← List.cons_append, infix_append_of_last_not_mem hstar]
    exact hnot
  rw [afterLabel?, hcut]

namespace WrittenStep

variable (s : WrittenStep)

/-- the lines below a step without the blanks before them -/
def bareBelow : List (List Char) :=
  (s.type.map (bare typeLabel)).toList ++ (s.description.map (bare descriptionLabel)).toList

theorem trim_below : s.below.map (fun l => trim isBlank l.toList) = s.bareBelow := by
  have htype : ∀ t ∈ s.type, trim isBlank (detail typeLabel t).toList = bare typeLabel t :=
    fun t ht => trim_detail typeLabel (s.isField_type t ht).1
  have hdescription : ∀ d ∈ s.description, trim isBlank (detail descriptionLabel d).toList = bare descriptionLabel d :=
    fun d hd => trim_detail descriptionLabel (s.isField_description d hd)
  rw [below, bareBelow]
  cases ht : s.type <;> cases hd : s.description <;> simp_all

theorem takeNumber?_bareBelow : ∀ l ∈ s.bareBelow, takeNumber? l = none := by
  intro l hl
  rcases List.mem_append.1 hl with hl | hl
  · obtain ⟨t, -, rfl⟩ := by simpa using hl
    exact takeNumber?_bare typeLabel t
  · obtain ⟨d, -, rfl⟩ := by simpa using hl
    exact takeNumber?_bare descriptionLabel d

/-- the type of a step is read on the line with its label alone -/
theorem filterMap_typeLabel :
    s.bareBelow.filterMap (afterLabel? typeLabel.toList) = (s.type.map fun t => ' ' :: t.toList).toList := by
  have hread : ∀ t, afterLabel? typeLabel.toList (bare typeLabel t) = some (' ' :: t.toList) := afterLabel?_bare rfl
  have hskip : ∀ d ∈ s.description, afterLabel? typeLabel.toList (bare descriptionLabel d) = none := fun d hd =>
    afterLabel?_bare_other (l := "**Node Type:*".toList) rfl (by decide) (s.isField_description d hd)
  rw [bareBelow, List.filterMap_append]
  cases s.type <;> cases hd : s.description <;> simp_all

/-- and so is its description -/
theorem filterMap_descriptionLabel :
    s.bareBelow.filterMap (afterLabel? descriptionLabel.toList) =
      (s.description.map fun d => ' ' :: d.toList).toList := by
  have hread : ∀ d, afterLabel? descriptionLabel.toList (bare descriptionLabel d) = some (' ' :: d.toList) :=
    afterLabel?_bare rfl
  have hskip : ∀ t ∈ s.type, afterLabel? descriptionLabel.toList (bare typeLabel t) = none := fun t ht =>
    afterLabel?_bare_other (l := "**Node:*".toList) rfl (by decide) (s.isField_type t ht).1
  rw [bareBelow, List.filterMap_append]
  cases ht : s.type <;> cases s.description <;> simp_all

/-! ## Headings -/

theorem toList_heading (k : Nat) :
    (s.heading k).toList = (toString k).toList ++ '.' :: ' ' :: '*' :: '*' :: (s.name.toList ++ ['*', '*']) := by
  simp [heading]

/-- no blanks stand around a heading -/
theorem trim_heading (k : Nat) : trim isBlank (s.heading k).toList = (s.heading k).toList := by
  have hnumber := (strip_eq_self_iff.1 (strip_toString k)).1
  obtain ⟨d, ds, hds, -⟩ := exists_digit_cons k
  rw [toList_heading]
  apply trim_eq_self
  · intro c hc
    apply hnumber c
    rw [hds] at hc ⊢
    exact hc
  · intro c hc
    obtain rfl : '*' = c := by simpa [List.getLast?_append, List.getLast?_cons] using hc
    decide

theorem takeNumber?_heading (k : Nat) : takeNumber? (trim isBlank (s.heading k).toList) =
    some ((toString k).toList, ' ' :: '*' :: '*' :: (s.name.toList ++ ['*', '*'])) := by
  rw [trim_heading, toList_heading, takeNumber?_toString]

/-- the name of a step is read on its heading -/
theorem boldStep?_heading (k : Nat) : boldStep? (trim isBlank (s.heading k).toList) = some s.name.toList := by
  have hname : ∀ c ∈ s.name.toList, (c != '*') = true := by
    intro c hc
    rw [bne_iff_ne]
    rintro rfl
    exact s.isField_name.noStar hc
  have hne : s.name.toList.isEmpty = false := by
    rw [List.isEmpty_eq_false_iff]
    simpa using s.isField_name.ne_empty
  have hstars : ('*' :: '*' :: (s.name.toList ++ ['*', '*'])).dropWhile isBlank =
      "**".toList ++ (s.name.toList ++ ['*', '*']) := rfl
  have htake : (s.name.toList ++ ['*', '*']).takeWhile (fun c => c != '*') = s.name.toList := by
    rw [List.takeWhile_append_of_pos hname, List.takeWhile_cons_of_neg (by decide), List.append_nil]
  have hdrop : (s.name.toList ++ ['*', '*']).dropWhile (fun c => c != '*') = "**".toList ++ [] := by
    rw [List.dropWhile_append_of_pos hname, List.dropWhile_cons_of_neg (by decide)]
    rfl
  have hblank : isBlank ' ' = true := by decide
  rw [boldStep?, takeNumber?_heading]
  simp only [hblank, if_true, hstars, dropLiteral?_eq_some_iff.2 rfl, htake, hdrop, hne, Bool.false_eq_true, if_false]
  rw [s.isField_name.toIsLine.trim_toList]

/-- a line below a step is no step of its own -/
theorem boldStep?_of_not_number {l : List Char} (h : takeNumber? l = none) : boldStep? l = none := by
  rw [boldStep?, h]

/-! ## Details -/

/-- the lines below a step describe it; what follows up to the next number adds at most empty lines -/
theorem details_append {rest : List (List Char)}
    (hrest : ∀ j, ∃ m, ((rest.take j).map (trim isBlank)).takeWhile (fun l => (takeNumber? l).isNone) =
      List.replicate m []) :
    ∃ m, details (s.below.map String.toList ++ rest) = s.bareBelow ++ List.replicate m [] := by
  obtain ⟨m, hm⟩ := hrest (detailLines - s.below.length)
  have hshort : s.below.length ≤ detailLines := by
    rw [below, List.length_append, Option.length_toList, Option.length_toList, detailLines]
    split <;> split <;> omega
  have htake : (s.below.map String.toList ++ rest).take detailLines =
      s.below.map String.toList ++ rest.take (detailLines - s.below.length) := by
    rw [List.take_append, List.length_map, List.take_of_length_le (by rwa [List.length_map])]
  have hbelow : (s.below.map String.toList).map (trim isBlank) = s.bareBelow := by
    rw [List.map_map]
    exact s.trim_below
  refine ⟨m, ?_⟩
  rw [details, htake, List.map_append, hbelow, List.takeWhile_append_of_pos, hm]
  intro l hl
  rw [s.takeNumber?_bareBelow l hl]
  rfl

/-- what is said under a label is not changed by empty lines -/
theorem lastLabelled?_append {label : List Char} (hlabel : label ≠ []) (ls : List (List Char)) (m : Nat) :
    lastLabelled? label (ls ++ List.replicate m []) = lastLabelled? label ls := by
  have hempty : (List.replicate m ([] : List Char)).filterMap (afterLabel? label) = [] := by
    rw [List.filterMap_eq_nil_iff]
    intro l hl
    rw [List.eq_of_mem_replicate hl, afterLabel?, cut?, if_neg (by simpa using hlabel)]
  rw [lastLabelled?, lastLabelled?, List.filterMap_append, hempty, List.append_nil]

theorem lastLabelled?_type : lastLabelled? typeLabel.toList s.bareBelow = s.type.map String.toList := by
  rw [lastLabelled?, filterMap_typeLabel]
  cases ht : s.type with
  | none => rfl
  | some t => exact congrArg some (s.isField_type t ht).1.toIsLine.trim_cons

theorem lastLabelled?_description :
    lastLabelled? descriptionLabel.toList s.bareBelow = s.description.map String.toList := by
  rw [lastLabelled?, filterMap_descriptionLabel]
  cases hd : s.description with
  | none => rfl
  | some d => exact congrArg some (s.isField_description d hd).toIsLine.trim_cons

/-- the text that the type is found by has no blanks around it -/
theorem strip_text : strip (s.name ++ " " ++ String.ofList ((s.description.map String.toList).getD [])) = s.text := by
  have hname := s.isField_name
  rw [text]
  cases hd : s.description with
  | none =>
    obtain ⟨hfirst, hlast⟩ := strip_eq_self_iff.1 hname.stripped
    have hblank : (s.name ++ " " ++ String.ofList []).toList = s.name.toList ++ [' '] := by simp
    have hhead : ∀ c ∈ (s.name.toList ++ [' ']).head?, isBlank c = false := by
      intro c hc
      rw [List.head?_append_of_ne_nil _ (by simpa using hname.ne_empty)] at hc
      exact hfirst c hc
    -- the blank at the end is the only character to drop
    have hright : (s.name.toList ++ [' ']).reverse.dropWhile isBlank = s.name.toList.reverse := by
      rw [List.reverse_append, List.reverse_singleton, List.singleton_append, List.dropWhile_cons_of_pos (by decide)]
      apply dropWhile_eq_self
      rw [List.head?_reverse]
      exact hlast
    rw [strip, Option.map_none, Option.getD_none, hblank, trim, trimLeft, dropWhile_eq_self hhead, trimRight, hright,
      List.reverse_reverse, String.ofList_toList]
  | some d =>
    have hdesc := s.isField_description d hd
    rw [Option.map_some, Option.getD_some, String.ofList_toList]
    exact strip_append hname.stripped hname.ne_empty hdesc.stripped hdesc.ne_empty " "

/-- the step that is read for a written one -/
def step : Step := ⟨s.name, s.description.getD s.name, s.text, s.type⟩

/-- a step is read back with its type and its description -/
theorem boldStep_written {below : List (List Char)} {m : Nat}
    (hbelow : details below = s.bareBelow ++ List.replicate m []) : boldStep s.name.toList below = s.step := by
  have htype : lastLabelled? "**Node Type:**".toList (s.bareBelow ++ List.replicate m []) =
      s.type.map String.toList := by
    rw [lastLabelled?_append (by decide)]
    exact s.lastLabelled?_type
  have hdescription : lastLabelled? "**Node:**".toList (s.bareBelow ++ List.replicate m []) =
      s.description.map String.toList := by
    rw [lastLabelled?_append (by decide)]
    exact s.lastLabelled?_description
  -- no back-quote stands around a type
  have hquotes : (((s.type.map String.toList).map (trim (· == '`'))).map String.ofList).filter (fun t => !t.isEmpty) =
      s.type := by
    cases ht : s.type with
    | none => rfl
    | some t =>
      obtain ⟨hfield, hquote⟩ := s.isField_type t ht
      have htrim : trim (· == '`') t.toList = t.toList := by
        apply trim_eq_self
        · intro c hc
          rw [beq_eq_false_iff_ne]
          rintro rfl
          exact hquote (List.mem_of_mem_head? hc)
        · intro c hc
          rw [beq_eq_false_iff_ne]
          rintro rfl
          exact hquote (List.mem_of_mem_getLast? hc)
      have hne : t.isEmpty = false := by simpa using hfield.ne_empty
      simp [htrim, hne]
  have hgiven : (if (String.ofList ((s.description.map String.toList).getD [])).isEmpty then s.name
      else String.ofList ((s.description.map String.toList).getD [])) = s.description.getD s.name := by
    cases hd : s.description with
    | none => simp
    | some d => simp [(s.isField_description d hd).ne_empty]
  rw [boldStep, hbelow]
  simp only [htype, hdescription, hquotes, String.ofList_toList, strip_text, hgiven]
  rfl

theorem requirement_step (resolver : Resolver) :
    s.step.requirement 1 (resolveStep resolver s.step).1 = s.requirement resolver := by
  rw [requirement, resolution, resolveStep, step]
  cases s.type <;> rfl

end WrittenStep

/-! ## Texts -/

/-- the lines of some written steps, numbered from `k + 1`, with `n` empty ones below -/
def textOf (ss : List WrittenStep) (k n : Nat) : List (List Char) :=
  (stepLines ss k).map String.toList ++ List.replicate n []

theorem textOf_cons (s : WrittenStep) (ss : List WrittenStep) (k n : Nat) :
    textOf (s :: ss) k n = (s.heading (k + 1)).toList :: (s.below.map String.toList ++ textOf ss (k + 1) n) := by
  simp [textOf, stepLines, WrittenStep.lines, List.zipIdx_cons]

/-- below a step, written steps begin with a number or are empty lines -/
theorem takeWhile_textOf (ss : List WrittenStep) (k n j : Nat) :
    ∃ m, (((textOf ss k n).take j).map (trim isBlank)).takeWhile (fun l => (takeNumber? l).isNone) =
      List.replicate m [] := by
  cases ss with
  | nil =>
    have hempty : textOf [] k n = List.replicate n [] := rfl
    refine ⟨min j n, ?_⟩
    rw [hempty, List.take_replicate, List.map_replicate, List.takeWhile_replicate]
    rfl
  | cons s ss =>
    refine ⟨0, ?_⟩
    rw [textOf_cons]
    cases j with
    | zero => rfl
    | succ j =>
      rw [List.take_succ_cons, List.map_cons, List.takeWhile_cons_of_neg, List.replicate_zero]
      rw [s.takeNumber?_heading]
      exact Bool.false_ne_true

/-- lines that hold no step are passed over -/
theorem boldSteps_append {ls : List (List Char)} (h : ∀ l ∈ ls, boldStep? (trim isBlank l) = none)
    (rest : List (List Char)) : boldSteps (ls ++ rest) = boldSteps rest := by
  induction ls with
  | nil => rfl
  | cons l ls ih =>
    rw [List.cons_append, boldSteps, h l List.mem_cons_self]
    exact ih fun l hl => h l (List.mem_cons_of_mem _ hl)

theorem boldStep?_below (s : WrittenStep) : ∀ l ∈ s.below.map String.toList, boldStep? (trim isBlank l) = none := by
  intro l hl
  apply WrittenStep.boldStep?_of_not_number
  apply s.takeNumber?_bareBelow
  obtain ⟨t, ht, rfl⟩ := List.mem_map.1 hl
  rw [← s.trim_below]
  exact List.mem_map.2 ⟨t, ht, rfl⟩

/-- the steps on the lines of written steps are these, by induction on them -/
theorem boldSteps_textOf (ss : List WrittenStep) (k n : Nat) :
    boldSteps (textOf ss k n) = ss.map WrittenStep.step := by
  induction ss generalizing k with
  | nil =>
    have hempty : textOf [] k n = List.replicate n [] ++ [] := (List.append_nil _).symm
    rw [hempty, boldSteps_append]
    · rfl
    · intro l hl
      rw [List.eq_of_mem_replicate hl]
      rfl
  | cons s ss ih =>
    obtain ⟨m, hm⟩ := s.details_append (takeWhile_textOf ss (k + 1) n)
    rw [textOf_cons, boldSteps, s.boldStep?_heading]
    dsimp only
    rw [s.boldStep_written hm, boldSteps_append (boldStep?_below s), ih, List.map_cons]

theorem noBreak_stepLines (ss : List WrittenStep) (k : Nat) : ∀ l ∈ stepLines ss k, '\n' ∉ l.toList := by
  intro l hl
  obtain ⟨⟨s, i⟩, -, hstep⟩ := List.mem_flatMap.1 hl
  rcases List.mem_cons.1 hstep with rfl | hbelow
  · have hnumber : '\n' ∉ (toString (i + 1)).toList := not_mem_toString (by decide)
    have hname := s.isField_name.noBreak
    rw [WrittenStep.toList_heading, List.mem_append, not_or]
    exact ⟨hnumber, by simpa using hname⟩
  · rcases List.mem_append.1 hbelow with hmem | hmem
    · obtain ⟨t, ht, rfl⟩ := Option.map_eq_some_iff.1 (Option.mem_toList.1 hmem)
      have htype := (s.isField_type t ht).1.noBreak
      simp [detail, typeLabel, htype]
    · obtain ⟨d, hd, rfl⟩ := Option.map_eq_some_iff.1 (Option.mem_toList.1 hmem)
      have hdescription := (s.isField_description d hd).noBreak
      simp [detail, descriptionLabel, hdescription]

/-- the lines of a written text are those it was put together from -/
theorem lines_writtenSteps (ss : List WrittenStep) (n : Nat) (hne : textOf ss 0 n ≠ []) :
    lines (writtenSteps ss n).toList = textOf ss 0 n :=
  lines_padded hne (noBreak_stepLines ss 0)

/-- the steps on the lines of a written text -/
theorem boldSteps_writtenSteps (ss : List WrittenStep) (n : Nat) :
    boldSteps (lines (writtenSteps ss n).toList) = ss.map WrittenStep.step := by
  by_cases hne : textOf ss 0 n = []
  · -- nothing is written, which is one empty line
    have hnothing : ss = [] ∧ n = 0 := by
      cases ss with
      | nil => simpa [textOf, stepLines] using hne
      | cons s ss => simp [textOf_cons] at hne
    obtain ⟨rfl, rfl⟩ := hnothing
    rfl
  · rw [lines_writtenSteps ss n hne, boldSteps_textOf]

/-- the steps that repeat the trigger are left out -/
theorem elideTriggers_written (ss : List WrittenStep) :
    elideTriggers (ss.map WrittenStep.step) = (remaining ss).map WrittenStep.step := by
  have hsame : ((fun s : Step => isTriggerStep s.name) ∘ WrittenStep.step) = fun s => repeatsTrigger s.name := by
    funext s
    rw [Function.comp_apply, isTriggerStep_eq]
    rfl
  rw [elideTriggers, List.dropWhile_map, hsame, remaining]

/-- **Numbered steps are read back exactly**: a text of written steps is read as one branch of those that are left after
the steps at the start that repeat the trigger, in order and with all that was written of them, and as no branch when none
is left. -/
theorem stepBranches_written (resolver : Resolver) (ss : List WrittenStep) (n : Nat) :
    stepBranches resolver (writtenSteps ss n).toList =
      if remaining ss = [] then []
      else [⟨1, "Main Workflow", "webhook", (remaining ss).map (WrittenStep.requirement resolver)⟩] := by
  have hrequirements : requirements resolver 1 (boldSteps (lines (writtenSteps ss n).toList)) =
      (remaining ss).map (WrittenStep.requirement resolver) := by
    rw [requirements, boldSteps_writtenSteps, elideTriggers_written, List.map_map]
    exact List.map_congr_left fun s _ => s.requirement_step resolver
  rw [stepBranches, hrequirements]
  cases remaining ss with
  | nil => rfl
  | cons s rest => rfl

/-- a step that repeats the trigger, with a description that looks like a step -/
def received : WrittenStep where
  name := "2. Order Received"
  type := none
  description := some "3. Save"
  isField_name := ⟨⟨by decide, by decide⟩, by decide, by decide⟩
  isField_type := fun _ h => absurd h (Option.not_mem_none _)
  isField_description := by
    rintro d ⟨⟩
    exact ⟨⟨by decide, by decide⟩, by decide, by decide⟩

/-- a step whose fields look like labels -/
def labelled : WrittenStep where
  name := "Node Type:"
  type := some "Node: set"
  description := some "Node Type: http"
  isField_name := ⟨⟨by decide, by decide⟩, by decide, by decide⟩
  isField_type := by
    rintro t ⟨⟩
    exact ⟨⟨⟨by decide, by decide⟩, by decide, by decide⟩, by decide⟩
  isField_description := by
    rintro d ⟨⟩
    exact ⟨⟨by decide, by decide⟩, by decide, by decide⟩

/-- a resolver that answers with the text it is asked for -/
def echo : Resolver := fun text => (⟨text, .double (Double.ofNat 1), "", [], .override⟩, [])

/-- neither the imitated number nor the imitated labels are taken for what they look like -/
theorem stepBranches_written_received :
    writtenSteps [received, labelled, received] 1 =
        "1. **2. Order Received**\n   - **Node:** 3. Save\n" ++
        "2. **Node Type:**\n   - **Node Type:** Node: set\n   - **Node:** Node Type: http\n" ++
        "3. **2. Order Received**\n   - **Node:** 3. Save\n" ∧
      (stepBranches echo (writtenSteps [received, labelled, received] 1).toList).map
          (fun b => b.requirements.map fun r => (r.name, r.description, r.type)) =
        [[("Node Type:", "Node Type: http", Parameters.canonicalType "Node: set"),
          ("2. Order Received", "3. Save", "2. Order Received 3. Save")]] := by
  constructor
  · decide +kernel
  · rw [stepBranches_written]
    rfl

end Plan

end WorkflowGraph
