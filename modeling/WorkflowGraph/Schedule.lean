import WorkflowGraph.Text.Case
import WorkflowGraph.Text.Digit
import WorkflowGraph.Text.Blank
import WorkflowGraph.Text.Word
import WorkflowGraph.Text.Search
/-
Schedules: the cron expression that a text asks for. Fixed phrases come first; then the first clock time after the word
"at" gives a daily schedule, if it is a time of day; everything else is hourly.
-/
namespace WorkflowGraph

namespace Schedule

open Text

/-- a schedule and the part of the text that asked for it -/
structure Timing where
  pattern : String
  cron : String
  deriving DecidableEq

/-- phrases with their cron expressions, the first that occurs decides -/
def phrases : List (String × String) := [
  ("every minute", "* * * * *"),
  ("every hour", "0 * * * *"),
  ("hourly", "0 * * * *"),
  ("every day", "0 0 * * *"),
  ("daily", "0 0 * * *"),
  ("every monday", "0 0 * * 1"),
  ("every week", "0 0 * * 0"),
  ("weekly", "0 0 * * 0"),
  ("every month", "0 0 1 * *"),
  ("monthly", "0 0 1 * *")]

def hourly : Timing := ⟨"every hour", "0 * * * *"⟩

/-! ## Clock times -/

/-- a half of the day -/
inductive Meridiem where
  | am
  | pm
  deriving DecidableEq

/-- a clock time in a text: its digits as written, and how many characters it covers -/
structure ClockTime where
  hour : Nat
  minute : Nat
  meridiem : Option Meridiem
  length : Nat

/-- the ways to take one or two digits off a text, two first -/
def hourChoices : List Char → List (List Char × List Char)
  | a :: b :: rest =>
    if isDigit a then
      if isDigit b then [([a, b], rest), ([a], b :: rest)] else [([a], b :: rest)]
    else []
  | [a] => if isDigit a then [([a], [])] else []
  | [] => []

/-- the ways to take a colon and two digits off a text, or nothing -/
def minuteChoices : List Char → List (List Char × List Char)
  | ':' :: a :: b :: rest =>
    if isDigit a && isDigit b then [([a, b], rest), ([], ':' :: a :: b :: rest)] else [([], ':' :: a :: b :: rest)]
  | cs => [([], cs)]

/-- the ways to take white space off a text, most first -/
def blankChoices (cs : List Char) : List (List Char) :=
  (List.range ((cs.takeWhile isBlank).length + 1)).reverse.map fun k => cs.drop k

/-- the ways to take a half of the day off a text, or nothing -/
def meridiemChoices (cs : List Char) : List (Option Meridiem × List Char) :=
  match cs with
  | a :: b :: rest =>
    if matchesLetter 'm' b then
      if matchesLetter 'a' a then [(some .am, rest), (none, cs)]
      else if matchesLetter 'p' a then [(some .pm, rest), (none, cs)]
      else [(none, cs)]
    else [(none, cs)]
  | _ => [(none, cs)]

/-- the clock time after "at" at the start of a text; it may not end inside a word -/
def clockTime? (before : Option Char) (cs : List Char) : Option ClockTime :=
  match cs with
  | a :: t :: ' ' :: rest =>
    if matchesLetter 'a' a && matchesLetter 't' t && isBoundary before (some a) then
      let ends (left : List Char) : Bool := isBoundary cs[cs.length - left.length - 1]? left.head?
      (hourChoices rest).findSome? fun (hour, rest) =>
        (minuteChoices rest).findSome? fun (minute, rest) =>
          (blankChoices rest).findSome? fun rest =>
            (meridiemChoices rest).findSome? fun (meridiem, left) =>
              if ends left then
                some ⟨digitsValue hour, digitsValue minute, meridiem, cs.length - left.length⟩
              else none
    else none
  | _ => none

/-- the first clock time in a text, with the characters it covers -/
def firstClockTime (before : Option Char) : List Char → Option (List Char × ClockTime)
  | [] => none
  | c :: rest =>
    match clockTime? before (c :: rest) with
    | some t => some ((c :: rest).take t.length, t)
    | none => firstClockTime (some c) rest

/-- the hour of the day: noon is 12 pm, midnight 12 am -/
def ClockTime.hourOfDay (t : ClockTime) : Nat :=
  match t.meridiem with
  | some .pm => if t.hour = 12 then 12 else t.hour + 12
  | some .am => if t.hour = 12 then 0 else t.hour
  | none => t.hour

/-- the schedule that a text asks for -/
def timing (text : String) : Timing :=
  let small := lower text
  match phrases.find? fun p => contains small p.1 with
  | some (pattern, cron) => ⟨pattern, cron⟩
  | none =>
    match firstClockTime none small.toList with
    | some (covered, t) =>
      if t.hourOfDay ≤ 23 ∧ t.minute ≤ 59 then
        ⟨String.ofList covered, toString t.minute ++ " " ++ toString t.hourOfDay ++ " * * *"⟩
      else hourly
    | none => hourly

end Schedule

end WorkflowGraph
