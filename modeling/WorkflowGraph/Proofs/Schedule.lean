import WorkflowGraph.Proofs.Text.Digit
import WorkflowGraph.Proofs.Text.Pattern
import WorkflowGraph.Schedule
/-
The schedule that a text asks for. It is always a cron expression of five fields, each of them in its range: that of a
fixed phrase, or the daily one at the first clock time that stands in the text, if this is a time of day. A clock time
has optional parts, which are tried longest first, so what is read of it goes as far as it can.

- `greatest_findSome?`: choices that are tried in order of size give the greatest result there is.
- `greatest_clockTime?`: the clock time at a place is the longest that stands there.
- `timing_asked`: the cron expression of every text.
-/
namespace WorkflowGraph

namespace Schedule

open Text Text.Pattern

/-! ## Cron expressions -/

/-- a cron expression, by the one value that a field asks for; a field without one stands for any value -/
structure Cron where
  minute : Option Nat
  hour : Option Nat
  day : Option Nat
  month : Option Nat
  weekday : Option Nat
  deriving DecidableEq

namespace Cron

def fieldText : Option Nat → String
  | none => "*"
  | some n => toString n

/-- the five fields with a blank between each two -/
def text (c : Cron) : String :=
  " ".intercalate [fieldText c.minute, fieldText c.hour, fieldText c.day, fieldText c.month, fieldText c.weekday]

/-- every field asks for a value that it can have -/
structure InRange (c : Cron) : Prop where
  minute : ∀ n ∈ c.minute, n ≤ 59
  hour : ∀ n ∈ c.hour, n ≤ 23
  day : ∀ n ∈ c.day, 1 ≤ n ∧ n ≤ 31
  month : ∀ n ∈ c.month, 1 ≤ n ∧ n ≤ 12
  weekday : ∀ n ∈ c.weekday, n ≤ 6

/-- at the start of every hour -/
def hourly : Cron := ⟨some 0, none, none, none, none⟩

/-- once a day -/
def daily (minute hour : Nat) : Cron := ⟨some minute, some hour, none, none, none⟩

/-- once a week, at midnight -/
def weekly (weekday : Nat) : Cron := ⟨some 0, some 0, none, none, some weekday⟩

/-- once a month, at midnight -/
def monthly (day : Nat) : Cron := ⟨some 0, some 0, some day, none, none⟩

theorem text_daily (minute hour : Nat) :
    (daily minute hour).text = toString minute ++ " " ++ toString hour ++ " * * *" := by
  simp [text, daily, fieldText, String.append_assoc]

theorem inRange_hourly : hourly.InRange := by constructor <;> simp [hourly]

theorem inRange_daily {minute hour : Nat} (hminute : minute ≤ 59) (hhour : hour ≤ 23) : (daily minute hour).InRange := by
  constructor <;> simp [daily, hminute, hhour]

theorem inRange_weekly {weekday : Nat} (h : weekday ≤ 6) : (weekly weekday).InRange := by
  constructor <;> simp [weekly, h]

theorem inRange_monthly {day : Nat} (hfirst : 1 ≤ day) (hlast : day ≤ 31) : (monthly day).InRange := by
  constructor <;> simp [monthly, hlast]
  omega

end Cron

/-- what the fixed phrases ask for -/
def schedules : List (String × Cron) := [
  ("every minute", ⟨none, none, none, none, none⟩),
  ("every hour", .hourly),
  ("hourly", .hourly),
  ("every day", .daily 0 0),
  ("daily", .daily 0 0),
  ("every monday", .weekly 1),
  ("every week", .weekly 0),
  ("weekly", .weekly 0),
  ("every month", .monthly 1),
  ("monthly", .monthly 1)]

theorem phrases_eq : phrases = schedules.map fun p => (p.1, p.2.text) := by decide +kernel

theorem inRange_of_mem_schedules : ∀ p ∈ schedules, p.2.InRange := by
  have hminute : Cron.InRange ⟨none, none, none, none, none⟩ := by constructor <;> simp
  have hdaily : (Cron.daily 0 0).InRange := Cron.inRange_daily (by decide) (by decide)
  have hweekly : ∀ weekday ≤ 6, (Cron.weekly weekday).InRange := fun _ => Cron.inRange_weekly
  have hmonthly : (Cron.monthly 1).InRange := Cron.inRange_monthly (by decide) (by decide)
  simp only [schedules, List.forall_mem_cons, hminute, Cron.inRange_hourly, hdaily, hweekly 0 (by decide),
    hweekly 1 (by decide), hmonthly, true_and, List.not_mem_nil, false_implies, implies_true]

/-! ## Choices in order of size -/

section Choices

variable {α β : Type}

/-- a result is the greatest of those that there are, and only missing if there is none -/
def Greatest (S : β → Prop) (size : β → Nat) : Option β → Prop
  | some r => S r ∧ ∀ r', S r' → size r' ≤ size r
  | none => ∀ r, ¬ S r

theorem Greatest.congr {S S' : β → Prop} {size : β → Nat} {o : Option β} (h : Greatest S size o)
    (heq : ∀ r, S r ↔ S' r) : Greatest S' size o := by
  obtain rfl : S = S' := funext fun r => propext (heq r)
  exact h

/-- **Choices that are tried in order of size give the greatest result**, if each of them gives its own greatest one. -/
theorem greatest_findSome? {l : List α} {f : α → Option β} {S : α → β → Prop} {size : β → Nat}
    (hf : ∀ a ∈ l, Greatest (S a) size (f a))
    (hl : l.Pairwise fun a b => ∀ r r', S a r → S b r' → size r' ≤ size r) :
    Greatest (fun r => ∃ a ∈ l, S a r) size (l.findSome? f) := by
  induction l with
  | nil => simp [Greatest]
  | cons a l ih =>
    rw [List.forall_mem_cons] at hf
    rw [List.pairwise_cons] at hl
    have hrest := ih hf.2 hl.2
    rw [List.findSome?_cons]
    cases hfa : f a with
    | some r =>
      obtain ⟨hr, hgreatest⟩ : Greatest (S a) size (some r) := hfa ▸ hf.1
      refine ⟨⟨a, List.mem_cons_self, hr⟩, ?_⟩
      rintro r' ⟨b, hb, hr'⟩
      rcases List.mem_cons.1 hb with rfl | hb
      · exact hgreatest r' hr'
      · exact hl.1 b hb r r' hr hr'
    | none =>
      have hnone : Greatest (S a) size none := hfa ▸ hf.1
      refine hrest.congr fun r => ?_
      rw [List.exists_mem_cons_iff, or_iff_right (hnone r)]

end Choices

/-! ## Parts of a clock time -/

/-- one or two digits -/
inductive HourPart : List Char → Prop
  | one {a : Char} (ha : isDigit a = true) : HourPart [a]
  | two {a b : Char} (ha : isDigit a = true) (hb : isDigit b = true) : HourPart [a, b]

/-- a colon and two digits, or nothing; with the digits -/
inductive MinutePart : List Char → List Char → Prop
  | absent : MinutePart [] []
  | given {a b : Char} (ha : isDigit a = true) (hb : isDigit b = true) : MinutePart [':', a, b] [a, b]

/-- the two letters of a half of the day, or nothing -/
inductive HalfPart : List Char → Option Meridiem → Prop
  | absent : HalfPart [] none
  | am {a m : Char} (ha : matchesLetter 'a' a = true) (hm : matchesLetter 'm' m = true) : HalfPart [a, m] (some .am)
  | pm {p m : Char} (hp : matchesLetter 'p' p = true) (hm : matchesLetter 'm' m = true) : HalfPart [p, m] (some .pm)

/-- which digits there are for an hour decides the ways to take it -/
theorem hourChoices_cases (cs : List Char) :
    (∃ a b more, cs = a :: b :: more ∧ isDigit a = true ∧ isDigit b = true ∧
        hourChoices cs = [([a, b], more), ([a], b :: more)]) ∨
      (∃ a more, cs = a :: more ∧ isDigit a = true ∧ hourChoices cs = [([a], more)]) ∨ hourChoices cs = [] := by
  rcases cs with _ | ⟨a, more⟩
  · exact .inr (.inr rfl)
  by_cases ha : isDigit a = true
  · rcases more with _ | ⟨b, more⟩
    · exact .inr (.inl ⟨a, [], rfl, ha, by simp [hourChoices, ha]⟩)
    by_cases hb : isDigit b = true
    · exact .inl ⟨a, b, more, rfl, ha, hb, by simp [hourChoices, ha, hb]⟩
    · exact .inr (.inl ⟨a, b :: more, rfl, ha, by simp [hourChoices, ha, hb]⟩)
  · refine .inr (.inr ?_)
    cases more <;> simp [hourChoices, ha]

theorem mem_hourChoices {cs hour rest : List Char} :
    (hour, rest) ∈ hourChoices cs ↔ cs = hour ++ rest ∧ HourPart hour := by
  constructor
  · intro h
    rcases hourChoices_cases cs with ⟨a, b, more, rfl, ha, hb, hchoices⟩ | ⟨a, more, rfl, ha, hchoices⟩ | hchoices
    · simp only [hchoices, List.mem_cons, Prod.mk.injEq, List.not_mem_nil, or_false] at h
      rcases h with ⟨rfl, rfl⟩ | ⟨rfl, rfl⟩
      · exact ⟨rfl, .two ha hb⟩
      · exact ⟨rfl, .one ha⟩
    · rw [hchoices, List.mem_singleton] at h
      cases h
      exact ⟨rfl, .one ha⟩
    · rw [hchoices] at h
      cases h
  · rintro ⟨rfl, hhour⟩
    cases hhour with
    | one ha =>
      rename_i a
      rcases rest with _ | ⟨b, more⟩
      · simp [hourChoices, ha]
      · by_cases hb : isDigit b = true <;> simp [hourChoices, ha, hb]
    | two ha hb => simp [hourChoices, ha, hb]

/-- a minute is taken or left, if there is one -/
theorem minuteChoices_cases (cs : List Char) :
    (∃ a b more, cs = ':' :: a :: b :: more ∧ isDigit a = true ∧ isDigit b = true ∧
        minuteChoices cs = [([a, b], more), ([], cs)]) ∨ minuteChoices cs = [([], cs)] := by
  unfold minuteChoices
  split
  · rename_i a b more
    split
    · rename_i hdigits
      rw [Bool.and_eq_true] at hdigits
      exact .inl ⟨a, b, more, rfl, hdigits.1, hdigits.2, rfl⟩
    · exact .inr rfl
  · exact .inr rfl

theorem mem_minuteChoices {cs minute rest : List Char} :
    (minute, rest) ∈ minuteChoices cs ↔ ∃ part, cs = part ++ rest ∧ MinutePart part minute := by
  constructor
  · intro h
    rcases minuteChoices_cases cs with ⟨a, b, more, rfl, ha, hb, hchoices⟩ | hchoices
    · simp only [hchoices, List.mem_cons, Prod.mk.injEq, List.not_mem_nil, or_false] at h
      rcases h with ⟨rfl, rfl⟩ | ⟨rfl, rfl⟩
      · exact ⟨[':', a, b], rfl, .given ha hb⟩
      · exact ⟨[], rfl, .absent⟩
    · rw [hchoices, List.mem_singleton] at h
      cases h
      exact ⟨[], rfl, .absent⟩
  · rintro ⟨part, rfl, hminute⟩
    cases hminute with
    | absent =>
      rw [List.nil_append]
      rcases minuteChoices_cases rest with ⟨a, b, more, -, -, -, hchoices⟩ | hchoices <;> simp [hchoices]
    | given ha hb => simp [minuteChoices, ha, hb]

/-- a half of the day is taken or left, if there is one -/
theorem meridiemChoices_cases (cs : List Char) :
    (∃ part m more, cs = part ++ more ∧ HalfPart part (some m) ∧
        meridiemChoices cs = [(some m, more), (none, cs)]) ∨ meridiemChoices cs = [(none, cs)] := by
  unfold meridiemChoices
  split
  · rename_i a b more
    split
    · rename_i hm
      split
      · rename_i ha
        exact .inl ⟨[a, b], .am, more, rfl, .am ha hm, rfl⟩
      · split
        · rename_i hp
          exact .inl ⟨[a, b], .pm, more, rfl, .pm hp hm, rfl⟩
        · exact .inr rfl
    · exact .inr rfl
  · exact .inr rfl

theorem mem_meridiemChoices {cs rest : List Char} {m : Option Meridiem} :
    (m, rest) ∈ meridiemChoices cs ↔ ∃ part, cs = part ++ rest ∧ HalfPart part m := by
  constructor
  · intro h
    rcases meridiemChoices_cases cs with ⟨part, m', more, hsplit, hhalf, hchoices⟩ | hchoices
    · simp only [hchoices, List.mem_cons, Prod.mk.injEq, List.not_mem_nil, or_false] at h
      rcases h with ⟨rfl, rfl⟩ | ⟨rfl, rfl⟩
      · exact ⟨part, hsplit, hhalf⟩
      · exact ⟨[], rfl, .absent⟩
    · rw [hchoices, List.mem_singleton] at h
      cases h
      exact ⟨[], rfl, .absent⟩
  · rintro ⟨part, rfl, hhalf⟩
    cases hhalf with
    | absent =>
      rw [List.nil_append]
      rcases meridiemChoices_cases rest with ⟨part, m, more, -, -, hchoices⟩ | hchoices <;> simp [hchoices]
    | am ha hm => simp [meridiemChoices, ha, hm]
    | pm hp hm =>
      rename_i p _
      have ha : matchesLetter 'a' p = false := by
        rw [← Bool.not_eq_true]
        intro ha
        exact absurd (eq_of_matchesLetter (by decide) (by decide) ha hp) (by decide)
      simp [meridiemChoices, ha, hp, hm]

theorem mem_blankChoices {cs rest : List Char} :
    rest ∈ blankChoices cs ↔ ∃ blanks, cs = blanks ++ rest ∧ ∀ c ∈ blanks, isBlank c = true := by
  simp only [blankChoices, List.mem_map, List.mem_reverse, List.mem_range, Nat.lt_succ_iff]
  constructor
  · rintro ⟨k, hk, rfl⟩
    refine ⟨cs.take k, (List.take_append_drop k cs).symm, fun c hc => ?_⟩
    have htaken : cs.take k <+: cs.takeWhile isBlank :=
      List.prefix_of_prefix_length_le (List.take_prefix k cs) (List.takeWhile_prefix isBlank)
        ((List.length_take_le k cs).trans hk)
    exact List.all_eq_true.1 List.all_takeWhile c (htaken.subset hc)
  · rintro ⟨blanks, rfl, hblanks⟩
    refine ⟨blanks.length, ?_, List.drop_left⟩
    rw [List.takeWhile_append_of_pos hblanks, List.length_append]
    exact Nat.le_add_right _ _

/-! ## The parts put together -/

section Parts

variable {cs rest : List Char} {hour minute : Nat} {r : ClockTime} {x : Char}

/-- a word boundary lies before what is left of a text -/
def Closes (cs left : List Char) : Prop := isBoundary cs[cs.length - left.length - 1]? left.head? = true

/-- the clock times that end behind a half of the day -/
def EndsInHalf (cs : List Char) (hour minute : Nat) (rest : List Char) (r : ClockTime) : Prop :=
  ∃ part m left, rest = part ++ left ∧ HalfPart part m ∧ Closes cs left ∧
    r = ⟨hour, minute, m, cs.length - left.length⟩

/-- the clock times that go on with blanks -/
def GoesOn (cs : List Char) (hour minute : Nat) (rest : List Char) (r : ClockTime) : Prop :=
  ∃ blanks left, rest = blanks ++ left ∧ (∀ c ∈ blanks, isBlank c = true) ∧ EndsInHalf cs hour minute left r

/-- the clock times that go on with a minute -/
def HasMinute (cs : List Char) (hour : Nat) (rest : List Char) (r : ClockTime) : Prop :=
  ∃ part digits left, rest = part ++ left ∧ MinutePart part digits ∧ GoesOn cs hour (digitsValue digits) left r

/-- the clock times that begin with an hour -/
def HasHour (cs rest : List Char) (r : ClockTime) : Prop :=
  ∃ digits left, rest = digits ++ left ∧ HourPart digits ∧ HasMinute cs (digitsValue digits) left r

theorem EndsInHalf.le (h : EndsInHalf cs hour minute rest r) : cs.length - rest.length ≤ r.length := by
  obtain ⟨part, m, left, rfl, -, -, rfl⟩ := h
  rw [List.length_append]
  show _ ≤ cs.length - left.length
  omega

theorem GoesOn.le (h : GoesOn cs hour minute rest r) : cs.length - rest.length ≤ r.length := by
  obtain ⟨blanks, left, rfl, -, hhalf⟩ := h
  have hle := hhalf.le
  rw [List.length_append]
  omega

/-- before any other character than a letter of its own nothing is read as a half of the day -/
theorem EndsInHalf.of_other (ha : matchesLetter 'a' x = false) (hp : matchesLetter 'p' x = false)
    (h : EndsInHalf cs hour minute (x :: rest) r) :
    Closes cs (x :: rest) ∧ r.length = cs.length - (x :: rest).length := by
  obtain ⟨part, m, left, hsplit, hhalf, hcloses, rfl⟩ := h
  cases hhalf with
  | absent =>
    obtain rfl := hsplit
    exact ⟨hcloses, rfl⟩
  | am ha' =>
    obtain ⟨rfl, -⟩ := List.cons.inj hsplit
    cases ha.symm.trans ha'
  | pm hp' =>
    obtain ⟨rfl, -⟩ := List.cons.inj hsplit
    cases hp.symm.trans hp'

theorem GoesOn.of_other (hblank : isBlank x = false) (ha : matchesLetter 'a' x = false)
    (hp : matchesLetter 'p' x = false) (h : GoesOn cs hour minute (x :: rest) r) :
    Closes cs (x :: rest) ∧ r.length = cs.length - (x :: rest).length := by
  obtain ⟨blanks, left, hsplit, hblanks, hhalf⟩ := h
  cases blanks with
  | nil =>
    obtain rfl := hsplit
    exact hhalf.of_other ha hp
  | cons b blanks =>
    obtain ⟨rfl, -⟩ := List.cons.inj hsplit
    cases hblank.symm.trans (hblanks x List.mem_cons_self)

/-- a digit begins no letter, no blank and no minute -/
theorem HasMinute.of_digit (hx : isDigit x = true) (h : HasMinute cs hour (x :: rest) r) : Closes cs (x :: rest) := by
  obtain ⟨part, digits, left, hsplit, hminute, hon⟩ := h
  cases hminute with
  | absent =>
    obtain rfl := hsplit
    exact (hon.of_other (isBlank_eq_false_of_isDigit hx) (matchesLetter_eq_false (by decide) (by decide) (.inl hx))
      (matchesLetter_eq_false (by decide) (by decide) (.inl hx))).1
  | given =>
    obtain ⟨rfl, -⟩ := List.cons.inj hsplit
    cases hx

/-! ## The search for one place -/

/-- the search behind an hour, a minute and blanks -/
def halfTime? (cs : List Char) (hour minute : Nat) (rest : List Char) : Option ClockTime :=
  (meridiemChoices rest).findSome? fun x =>
    if isBoundary cs[cs.length - x.2.length - 1]? x.2.head? then some ⟨hour, minute, x.1, cs.length - x.2.length⟩
    else none

/-- the search behind an hour and a minute -/
def blankTime? (cs : List Char) (hour minute : Nat) (rest : List Char) : Option ClockTime :=
  (blankChoices rest).findSome? (halfTime? cs hour minute)

/-- the search behind an hour -/
def minuteTime? (cs : List Char) (hour : Nat) (rest : List Char) : Option ClockTime :=
  (minuteChoices rest).findSome? fun x => blankTime? cs hour (digitsValue x.1) x.2

/-- the search behind the word -/
def hourTime? (cs rest : List Char) : Option ClockTime :=
  (hourChoices rest).findSome? fun x => minuteTime? cs (digitsValue x.1) x.2

theorem clockTime?_eq (before : Option Char) (a t : Char) (rest : List Char) :
    clockTime? before (a :: t :: ' ' :: rest) =
      if matchesLetter 'a' a && matchesLetter 't' t && isBoundary before (some a) then
        hourTime? (a :: t :: ' ' :: rest) rest
      else none := rfl

theorem pairwise_meridiemChoices (cs : List Char) :
    (meridiemChoices cs).Pairwise fun a b => a.2.length ≤ b.2.length := by
  rcases meridiemChoices_cases cs with ⟨part, m, more, rfl, -, hchoices⟩ | hchoices
  · rw [hchoices]
    refine List.pairwise_pair.2 ?_
    rw [List.length_append]
    exact Nat.le_add_left _ _
  · rw [hchoices]
    exact List.pairwise_singleton _ _

theorem greatest_halfTime? (cs : List Char) (hour minute : Nat) (rest : List Char) :
    Greatest (EndsInHalf cs hour minute rest) ClockTime.length (halfTime? cs hour minute rest) := by
  refine (greatest_findSome? (S := fun x r => Closes cs x.2 ∧ r = ⟨hour, minute, x.1, cs.length - x.2.length⟩)
    (fun x _ => ?_) ?_).congr fun r => ?_
  · split
    · rename_i hcloses
      refine ⟨⟨hcloses, rfl⟩, ?_⟩
      rintro r' ⟨-, rfl⟩
      exact Nat.le_refl _
    · rename_i hcloses
      rintro r' ⟨hcloses', -⟩
      exact hcloses hcloses'
  · refine (pairwise_meridiemChoices rest).imp fun {a b} hle r r' hr hr' => ?_
    rw [hr.2, hr'.2]
    exact Nat.sub_le_sub_left hle cs.length
  · constructor
    · rintro ⟨⟨m, left⟩, hx, hcloses, rfl⟩
      obtain ⟨part, hsplit, hhalf⟩ := mem_meridiemChoices.1 hx
      exact ⟨part, m, left, hsplit, hhalf, hcloses, rfl⟩
    · rintro ⟨part, m, left, hsplit, hhalf, hcloses, rfl⟩
      exact ⟨(m, left), mem_meridiemChoices.2 ⟨part, hsplit, hhalf⟩, hcloses, rfl⟩

/-- what is left when not all blanks are taken begins with a blank -/
theorem isBlank_getElem {k : Nat} (hk : k < (rest.takeWhile isBlank).length) (hinside : k < rest.length) :
    isBlank rest[k] = true := by
  rw [← (List.takeWhile_prefix isBlank).getElem hk]
  exact List.all_eq_true.1 List.all_takeWhile _ (List.getElem_mem hk)

theorem greatest_blankTime? (cs : List Char) (hour minute : Nat) (rest : List Char) :
    Greatest (GoesOn cs hour minute rest) ClockTime.length (blankTime? cs hour minute rest) := by
  refine (greatest_findSome? (fun left _ => greatest_halfTime? cs hour minute left) ?_).congr fun r => ?_
  · rw [blankChoices, List.pairwise_map, List.pairwise_reverse]
    refine List.pairwise_lt_range.imp_of_mem fun {k' k} _ hk hlt r r' hr hr' => ?_
    rw [List.mem_range, Nat.lt_succ_iff] at hk
    have hinside : k' < rest.length := (hlt.trans_le hk).trans_le (List.takeWhile_prefix isBlank).length_le
    have hblank := isBlank_getElem (hlt.trans_le hk) hinside
    rw [List.drop_eq_getElem_cons hinside] at hr'
    have hend := (hr'.of_other (matchesLetter_eq_false (by decide) (by decide) (.inr hblank))
      (matchesLetter_eq_false (by decide) (by decide) (.inr hblank))).2
    have hle := hr.le
    rw [List.length_drop] at hle
    rw [List.length_cons, List.length_drop] at hend
    omega
  · constructor
    · rintro ⟨left, hleft, hhalf⟩
      obtain ⟨blanks, hsplit, hblanks⟩ := mem_blankChoices.1 hleft
      exact ⟨blanks, left, hsplit, hblanks, hhalf⟩
    · rintro ⟨blanks, left, hsplit, hblanks, hhalf⟩
      exact ⟨left, mem_blankChoices.2 ⟨blanks, hsplit, hblanks⟩, hhalf⟩

theorem greatest_minuteTime? (cs : List Char) (hour : Nat) (rest : List Char) :
    Greatest (HasMinute cs hour rest) ClockTime.length (minuteTime? cs hour rest) := by
  refine (greatest_findSome? (fun x _ => greatest_blankTime? cs hour (digitsValue x.1) x.2) ?_).congr fun r => ?_
  · rcases minuteChoices_cases rest with ⟨a, b, more, rfl, -, -, hchoices⟩ | hchoices
    · rw [hchoices]
      refine List.pairwise_pair.2 fun r r' hr hr' => ?_
      -- a minute that is left unread begins with its colon
      have hend := (hr'.of_other (by decide) (by decide) (by decide)).2
      have hle : cs.length - more.length ≤ r.length := hr.le
      rw [List.length_cons, List.length_cons, List.length_cons] at hend
      omega
    · rw [hchoices]
      exact List.pairwise_singleton _ _
  · constructor
    · rintro ⟨⟨digits, left⟩, hx, hon⟩
      obtain ⟨part, hsplit, hminute⟩ := mem_minuteChoices.1 hx
      exact ⟨part, digits, left, hsplit, hminute, hon⟩
    · rintro ⟨part, digits, left, hsplit, hminute, hon⟩
      exact ⟨(digits, left), mem_minuteChoices.2 ⟨part, hsplit, hminute⟩, hon⟩

/-- no clock time ends between two digits -/
theorem not_closes_of_digits {pre : List Char} {a b : Char} (ha : isDigit a = true) (hb : isDigit b = true) :
    ¬ Closes (pre ++ a :: b :: rest) (b :: rest) := by
  have hindex : (pre ++ a :: b :: rest).length - (b :: rest).length - 1 = pre.length := by
    simp only [List.length_append, List.length_cons]
    omega
  rw [Closes, hindex, List.getElem?_append_right (Nat.le_refl _), Nat.sub_self]
  simp [isBoundary, isWordChar_of_isDigit ha, isWordChar_of_isDigit hb]

theorem greatest_hourTime? (pre rest : List Char) :
    Greatest (HasHour (pre ++ rest) rest) ClockTime.length (hourTime? (pre ++ rest) rest) := by
  refine (greatest_findSome? (fun x _ => greatest_minuteTime? (pre ++ rest) (digitsValue x.1) x.2) ?_).congr fun r => ?_
  · rcases hourChoices_cases rest with ⟨a, b, more, rfl, ha, hb, hchoices⟩ | ⟨a, more, -, -, hchoices⟩ | hchoices
    · rw [hchoices]
      exact List.pairwise_pair.2 fun r r' _ hr' => absurd (hr'.of_digit hb) (not_closes_of_digits ha hb)
    · rw [hchoices]
      exact List.pairwise_singleton _ _
    · rw [hchoices]
      exact .nil
  · constructor
    · rintro ⟨⟨digits, left⟩, hx, hminute⟩
      obtain ⟨hsplit, hhour⟩ := mem_hourChoices.1 hx
      exact ⟨digits, left, hsplit, hhour, hminute⟩
    · rintro ⟨digits, left, hsplit, hhour, hminute⟩
      exact ⟨(digits, left), mem_hourChoices.2 ⟨hsplit, hhour⟩, hminute⟩

end Parts

/-! ## Clock times in a text -/

/-- some characters tell a clock time: the word "at", a space, an hour, perhaps a minute, blanks, and perhaps a half of the
day -/
inductive Tells : List Char → ClockTime → Prop
  | intro {a t : Char} {hour part minute blanks half : List Char} {m : Option Meridiem}
      (ha : matchesLetter 'a' a = true) (ht : matchesLetter 't' t = true) (hhour : HourPart hour)
      (hminute : MinutePart part minute) (hblanks : ∀ c ∈ blanks, isBlank c = true) (hhalf : HalfPart half m) :
      Tells (a :: t :: ' ' :: (hour ++ (part ++ (blanks ++ half))))
        ⟨digitsValue hour, digitsValue minute, m, (a :: t :: ' ' :: (hour ++ (part ++ (blanks ++ half)))).length⟩

/-- a clock time stands at an offset of a text, between two word boundaries -/
structure Stands (before : Option Char) (cs : List Char) (i : Nat) (u : List Char) (t : ClockTime) : Prop where
  tells : Tells u t
  here : u <+: cs.drop i
  opens : isBoundary (preceding before cs i) u.head? = true
  closes : isBoundary u.getLast? cs[i + u.length]? = true

theorem Tells.length_eq {u : List Char} {t : ClockTime} (h : Tells u t) : t.length = u.length := by
  cases h
  rfl

/-- the boundary behind some characters at the start of a text -/
theorem closes_append {u left : List Char} (hne : u ≠ []) :
    Closes (u ++ left) left ↔ isBoundary u.getLast? left.head? = true := by
  have hpos := List.length_pos_of_ne_nil hne
  have hindex : (u ++ left).length - left.length - 1 = u.length - 1 := by
    rw [List.length_append]
    omega
  rw [Closes, hindex, List.getElem?_append_left (by omega), List.getLast?_eq_getElem?]

/-- what follows the word, read on, is what the whole tells -/
theorem hasHour_iff {a t : Char} {rest : List Char} {r : ClockTime} (ha : matchesLetter 'a' a = true)
    (ht : matchesLetter 't' t = true) : HasHour (a :: t :: ' ' :: rest) rest r ↔
      ∃ u left, a :: t :: ' ' :: rest = u ++ left ∧ Tells u r ∧ isBoundary u.getLast? left.head? = true := by
  constructor
  · rintro ⟨hour, _, rfl, hhour, part, minute, _, rfl, hminute, blanks, _, rfl, hblanks, half, m, left, rfl, hhalf,
      hcloses, rfl⟩
    have hsplit : a :: t :: ' ' :: (hour ++ (part ++ (blanks ++ (half ++ left)))) =
        (a :: t :: ' ' :: (hour ++ (part ++ (blanks ++ half)))) ++ left := by simp
    rw [hsplit] at hcloses ⊢
    refine ⟨_, left, rfl, ?_, (closes_append (List.cons_ne_nil _ _)).1 hcloses⟩
    rw [List.length_append, Nat.add_sub_cancel_right]
    exact .intro ha ht hhour hminute hblanks hhalf
  · rintro ⟨u, left, hsplit, htells, hcloses⟩
    cases htells with
    | @intro a' t' hour part minute blanks half m _ _ hhour hminute hblanks hhalf =>
      rw [← closes_append (List.cons_ne_nil _ _), ← hsplit] at hcloses
      have hlength := congrArg List.length hsplit
      rw [List.length_append] at hlength
      simp only [List.cons_append, List.append_assoc, List.cons.injEq, true_and] at hsplit
      obtain ⟨-, -, rfl⟩ := hsplit
      refine ⟨hour, _, rfl, hhour, part, minute, _, rfl, hminute, blanks, _, rfl, hblanks, half, m, left, rfl, hhalf,
        hcloses, ?_⟩
      rw [hlength, Nat.add_sub_cancel_right]

theorem Stands.length_eq {before : Option Char} {cs u : List Char} {i : Nat} {t : ClockTime}
    (h : Stands before cs i u t) : t.length = u.length := h.tells.length_eq

theorem stands_start_iff {before : Option Char} {cs u : List Char} {t : ClockTime} :
    Stands before cs 0 u t ↔ Tells u t ∧ isBoundary before u.head? = true ∧
      ∃ left, cs = u ++ left ∧ isBoundary u.getLast? left.head? = true := by
  have hbehind : ∀ left : List Char, (u ++ left)[0 + u.length]? = left.head? := by
    intro left
    rw [Nat.zero_add, List.getElem?_append_right (Nat.le_refl _), Nat.sub_self, List.head?_eq_getElem?]
  constructor
  · rintro ⟨htells, ⟨left, hleft⟩, hopens, hcloses⟩
    rw [List.drop_zero] at hleft
    rw [← hleft, hbehind] at hcloses
    exact ⟨htells, hopens, left, hleft.symm, hcloses⟩
  · rintro ⟨htells, hopens, left, rfl, hcloses⟩
    exact ⟨htells, ⟨left, rfl⟩, hopens, by rwa [hbehind]⟩

/-- a clock time at the start of a text begins with the word and a space behind it -/
theorem Stands.begins {before : Option Char} {cs u : List Char} {r : ClockTime} (h : Stands before cs 0 u r) :
    ∃ a t rest, cs = a :: t :: ' ' :: rest ∧
      (matchesLetter 'a' a && matchesLetter 't' t && isBoundary before (some a)) = true := by
  obtain ⟨htells, hopens, left, rfl, -⟩ := stands_start_iff.1 h
  cases htells with
  | intro ha ht =>
    refine ⟨_, _, _, rfl, ?_⟩
    rw [Bool.and_eq_true, Bool.and_eq_true]
    exact ⟨⟨ha, ht⟩, hopens⟩

/-- **The clock time at the start of a text is the longest that stands there.** -/
theorem greatest_clockTime? (before : Option Char) (cs : List Char) :
    Greatest (fun r => ∃ u, Stands before cs 0 u r) ClockTime.length (clockTime? before cs) := by
  by_cases hbegins : ∃ a t rest, cs = a :: t :: ' ' :: rest ∧
      (matchesLetter 'a' a && matchesLetter 't' t && isBoundary before (some a)) = true
  · obtain ⟨a, t, rest, rfl, hword⟩ := hbegins
    rw [clockTime?_eq, if_pos hword]
    rw [Bool.and_eq_true, Bool.and_eq_true] at hword
    refine (greatest_hourTime? [a, t, ' '] rest).congr fun r => ?_
    rw [List.cons_append, List.cons_append, List.cons_append, List.nil_append, hasHour_iff hword.1.1 hword.1.2]
    constructor
    · rintro ⟨u, left, hsplit, htells, hcloses⟩
      refine ⟨u, stands_start_iff.2 ⟨htells, ?_, left, hsplit, hcloses⟩⟩
      cases htells
      obtain ⟨rfl, -⟩ := List.cons.inj hsplit
      exact hword.2
    · rintro ⟨u, hstands⟩
      obtain ⟨htells, -, left, hsplit, hcloses⟩ := stands_start_iff.1 hstands
      exact ⟨u, left, hsplit, htells, hcloses⟩
  · have hnone : clockTime? before cs = none := by
      unfold clockTime?
      split
      · rename_i a t rest
        exact if_neg fun hword => hbegins ⟨a, t, rest, rfl, hword⟩
      · rfl
    rw [hnone]
    rintro r ⟨u, h⟩
    exact hbegins h.begins

theorem stands_iff_drop {before : Option Char} {cs u : List Char} {i : Nat} {t : ClockTime} :
    Stands before cs i u t ↔ Stands (preceding before cs i) (cs.drop i) 0 u t := by
  constructor
  · rintro ⟨htells, hhere, hopens, hcloses⟩
    exact ⟨htells, hhere, hopens, by rwa [Nat.zero_add, List.getElem?_drop]⟩
  · rintro ⟨htells, hhere, hopens, hcloses⟩
    exact ⟨htells, hhere, hopens, by rwa [Nat.zero_add, List.getElem?_drop] at hcloses⟩

theorem firstClockTime_eq_some {before : Option Char} {cs u : List Char} {t : ClockTime}
    (h : firstClockTime before cs = some (u, t)) :
    ∃ i, clockTime? (preceding before cs i) (cs.drop i) = some t ∧ u = (cs.drop i).take t.length ∧
      ∀ j < i, clockTime? (preceding before cs j) (cs.drop j) = none := by
  induction cs generalizing before with
  | nil => cases h
  | cons c rest ih =>
    unfold firstClockTime at h
    split at h
    · rename_i t' ht
      obtain ⟨rfl, rfl⟩ := Prod.mk.inj (Option.some_inj.1 h)
      exact ⟨0, ht, rfl, by simp⟩
    · rename_i hnone
      obtain ⟨i, ht, hu, hbefore⟩ := ih h
      refine ⟨i + 1, by rwa [preceding_cons], hu, fun j hj => ?_⟩
      cases j with
      | zero => exact hnone
      | succ j =>
        rw [preceding_cons]
        exact hbefore j (Nat.lt_of_succ_lt_succ hj)

theorem firstClockTime_eq_none {before : Option Char} {cs : List Char} (h : firstClockTime before cs = none) (i : Nat) :
    clockTime? (preceding before cs i) (cs.drop i) = none := by
  induction cs generalizing before i with
  | nil =>
    rw [List.drop_nil]
    rfl
  | cons c rest ih =>
    unfold firstClockTime at h
    split at h
    · cases h
    · rename_i hnone
      cases i with
      | zero => exact hnone
      | succ i =>
        rw [preceding_cons]
        exact ih h i

theorem not_stands_of_eq_none {before : Option Char} {cs : List Char} {i : Nat}
    (h : clockTime? (preceding before cs i) (cs.drop i) = none) (u : List Char) (t : ClockTime) :
    ¬ Stands before cs i u t := by
  intro hstands
  have hgreatest := greatest_clockTime? (preceding before cs i) (cs.drop i)
  rw [h] at hgreatest
  exact hgreatest t ⟨u, stands_iff_drop.1 hstands⟩

/-- the first clock time of a text, read as far as it goes -/
structure FirstTime (cs : List Char) (i : Nat) (u : List Char) (t : ClockTime) : Prop where
  stands : Stands none cs i u t
  first : ∀ j v s, Stands none cs j v s → i ≤ j
  longest : ∀ v s, Stands none cs i v s → v.length ≤ u.length

/-- **The search finds the first clock time of a text**, and something if there is any. -/
theorem firstTime_of_eq_some {cs u : List Char} {t : ClockTime} (h : firstClockTime none cs = some (u, t)) :
    ∃ i, FirstTime cs i u t := by
  obtain ⟨i, ht, rfl, hbefore⟩ := firstClockTime_eq_some h
  have hgreatest := greatest_clockTime? (preceding none cs i) (cs.drop i)
  rw [ht] at hgreatest
  obtain ⟨⟨u, hu⟩, hlongest⟩ := hgreatest
  have htake : (cs.drop i).take t.length = u := by
    rw [hu.length_eq]
    exact (List.prefix_iff_eq_take.1 hu.here).symm
  rw [htake]
  refine ⟨i, stands_iff_drop.2 hu, fun j v s hs => ?_, fun v s hs => ?_⟩
  · by_contra hlt
    exact not_stands_of_eq_none (hbefore j (Nat.lt_of_not_le hlt)) v s hs
  · rw [← hs.length_eq, ← hu.length_eq]
    exact hlongest s ⟨v, stands_iff_drop.1 hs⟩

/-! ## Schedules -/

/-- the cron expression that a text in small letters asks for -/
inductive Asks (small : String) : Cron → Prop
  | phrase {before after : List (String × Cron)} {pattern : String} {c : Cron}
      (split : schedules = before ++ (pattern, c) :: after) (holds : contains small pattern = true)
      (others : ∀ p ∈ before, contains small p.1 = false) : Asks small c
  | time {i : Nat} {u : List Char} {t : ClockTime} (others : ∀ p ∈ schedules, contains small p.1 = false)
      (first : FirstTime small.toList i u t) (hour : t.hourOfDay ≤ 23) (minute : t.minute ≤ 59) :
      Asks small (.daily t.minute t.hourOfDay)
  | beyond {i : Nat} {u : List Char} {t : ClockTime} (others : ∀ p ∈ schedules, contains small p.1 = false)
      (first : FirstTime small.toList i u t) (outside : 23 < t.hourOfDay ∨ 59 < t.minute) : Asks small .hourly
  | silent (others : ∀ p ∈ schedules, contains small p.1 = false)
      (none : ∀ i u t, ¬ Stands none small.toList i u t) : Asks small .hourly

/-- whatever a text asks for is in range -/
theorem Asks.inRange {small : String} {c : Cron} (h : Asks small c) : c.InRange := by
  cases h with
  | @phrase before after pattern _ split =>
    exact inRange_of_mem_schedules (pattern, c) (split ▸ List.mem_append_right _ List.mem_cons_self)
  | time _ _ hour minute => exact Cron.inRange_daily minute hour
  | beyond => exact Cron.inRange_hourly
  | silent => exact Cron.inRange_hourly

theorem find?_phrases (small : String) :
    (phrases.find? fun p => contains small p.1) =
      (schedules.find? fun p => contains small p.1).map fun p => (p.1, p.2.text) := by
  rw [phrases_eq, List.find?_map]
  rfl

theorem asks_timing (text : String) : ∃ c : Cron, (timing text).cron = c.text ∧ Asks (lower text) c := by
  unfold timing
  dsimp only
  rw [find?_phrases]
  cases hfind : schedules.find? fun p => contains (lower text) p.1 with
  | some p =>
    obtain ⟨holds, before, after, split, others⟩ := List.find?_eq_some_iff_append.1 hfind
    exact ⟨p.2, rfl, .phrase split holds fun q hq => by simpa using others q hq⟩
  | none =>
    have others : ∀ p ∈ schedules, contains (lower text) p.1 = false := by simpa using hfind
    rw [Option.map_none]
    dsimp only
    cases hfirst : firstClockTime none (lower text).toList with
    | none =>
      have hsilent : ∀ i u t, ¬ Stands none (lower text).toList i u t :=
        fun i => not_stands_of_eq_none (firstClockTime_eq_none hfirst i)
      exact ⟨.hourly, by decide +kernel, .silent others hsilent⟩
    | some found =>
      obtain ⟨u, t⟩ := found
      obtain ⟨i, first⟩ := firstTime_of_eq_some hfirst
      dsimp only
      split
      · rename_i hinside
        exact ⟨.daily t.minute t.hourOfDay, (Cron.text_daily _ _).symm, .time others first hinside.1 hinside.2⟩
      · rename_i houtside
        exact ⟨.hourly, by decide +kernel, .beyond others first (by omega)⟩

/-- **Every text gives a valid cron expression**: five fields with a blank between each two, each of them in its range,
and those that the text asks for. -/
theorem timing_asked (text : String) :
    ∃ c : Cron, (timing text).cron = c.text ∧ c.InRange ∧ Asks (lower text) c := by
  obtain ⟨c, hcron, hasks⟩ := asks_timing text
  exact ⟨c, hcron, hasks.inRange, hasks⟩

/-- a time of day in other digits than the ASCII ones, and one that is none -/
example : timing "at ١٢:٣٠ am" = ⟨"at ١٢:٣٠ am", "30 0 * * *"⟩ ∧ timing "At 13:05 PM" = hourly := by
  decide +kernel

end Schedule

end WorkflowGraph
