/-
Searching and splitting texts, on lists of characters.
-/
namespace WorkflowGraph.Text

/-- what follows a literal at the start of a text -/
def dropLiteral? : List Char → List Char → Option (List Char)
  | [], cs => some cs
  | _ :: _, [] => none
  | p :: ps, c :: cs => if p = c then dropLiteral? ps cs else none

/-- what stands before the first occurrence of a part, and what follows it -/
def cut? (part : List Char) : List Char → Option (List Char × List Char)
  | [] => if part.isEmpty then some ([], []) else none
  | c :: rest =>
    match dropLiteral? part (c :: rest) with
    | some after => some ([], after)
    | none => (cut? part rest).map fun (before, after) => (c :: before, after)

/-- the text from the start of each occurrence on, occurrences that overlap included -/
def occurrences (part : List Char) : List Char → List (List Char)
  | [] => []
  | c :: rest =>
    if part.isPrefixOf (c :: rest) then (c :: rest) :: occurrences part rest else occurrences part rest

/-- whether a part occurs in a text -/
def occurs (part : List Char) : List Char → Bool
  | [] => part.isEmpty
  | c :: rest => part.isPrefixOf (c :: rest) || occurs part rest

/-- the offset of the first occurrence of a part -/
def offset? (part : List Char) (cs : List Char) : Option Nat := (cut? part cs).map (·.1.length)

/-- how many occurrences of a part there are, counted from the left without overlaps; `skip` characters belong to the
occurrence before -/
def countFrom (part : List Char) (skip : Nat) : List Char → Nat
  | [] => 0
  | c :: rest =>
    match skip with
    | k + 1 => countFrom part k rest
    | 0 =>
      if part.isPrefixOf (c :: rest) then countFrom part (part.length - 1) rest + 1 else countFrom part 0 rest

def count (part : List Char) (cs : List Char) : Nat := countFrom part 0 cs

/-- the pieces between the occurrences of a character -/
def splitOn (sep : Char) : List Char → List (List Char)
  | [] => [[]]
  | c :: rest =>
    if c = sep then [] :: splitOn sep rest
    else
      match splitOn sep rest with
      | [] => [[c]]
      | piece :: pieces => (c :: piece) :: pieces

def lines (cs : List Char) : List (List Char) := splitOn '\n' cs

/-- the pieces of a text between the occurrences of a character -/
def pieces (sep : Char) (s : String) : List String := (splitOn sep s.toList).map String.ofList

/-- whether a part occurs in a text -/
def contains (s part : String) : Bool := occurs part.toList s.toList

def containsAny (s : String) (parts : List String) : Bool := parts.any (contains s)

def containsAll (s : String) (parts : List String) : Bool := parts.all (contains s)

/-- what follows the last point, or the whole text when it has none -/
def afterLast (sep : Char) (cs : List Char) : List Char := (cs.reverse.takeWhile (· != sep)).reverse

/-- every line end written as a line feed -/
def unifyLineEnds : List Char → List Char
  | [] => []
  | '\r' :: '\n' :: rest => '\n' :: unifyLineEnds rest
  | '\r' :: rest => '\n' :: unifyLineEnds rest
  | c :: rest => c :: unifyLineEnds rest

/-- the first `n` characters; a negative `n` leaves out that many at the end -/
def takeInt (n : Int) (cs : List Char) : List Char :=
  if 0 ≤ n then cs.take n.toNat else cs.take (cs.length - n.natAbs)

def joinWith (sep : String) (parts : List String) : String := sep.intercalate parts

/-! ## Laws -/

/-- a literal is dropped exactly where the text starts with it -/
theorem dropLiteral?_eq_some_iff {part cs rest : List Char} :
    dropLiteral? part cs = some rest ↔ cs = part ++ rest := by
  induction part generalizing cs with
  | nil => simp [dropLiteral?]
  | cons p ps ih =>
    cases cs with
    | nil => simp [dropLiteral?]
    | cons c cs => by_cases h : p = c <;> simp [dropLiteral?, h, ih]; exact fun hc => absurd hc.symm h

/-- nothing is lost by a cut -/
theorem eq_append_of_cut? {part cs before after : List Char} (h : cut? part cs = some (before, after)) :
    cs = before ++ (part ++ after) := by
  induction cs generalizing before after with
  | nil =>
    cases part <;> simp_all [cut?]
  | cons c rest ih =>
    unfold cut? at h
    split at h
    next a ha =>
      obtain ⟨hb, rfl⟩ := Prod.mk.inj (Option.some.inj h)
      subst hb
      have hc := dropLiteral?_eq_some_iff.1 ha
      exact hc
    next =>
      obtain ⟨⟨b, a⟩, hc, hp⟩ := Option.map_eq_some_iff.1 h
      obtain ⟨rfl, rfl⟩ := Prod.mk.inj hp
      simp [ih hc]

/-- a part occurs exactly when the text holds it in one piece -/
theorem occurs_iff {part cs : List Char} : occurs part cs = true ↔ part <:+: cs := by
  induction cs with
  | nil => cases part <;> simp [occurs]
  | cons c rest ih => simp [occurs, ih, List.infix_cons_iff]

/-- every text has a first piece -/
theorem splitOn_ne_nil (sep : Char) (cs : List Char) : splitOn sep cs ≠ [] := by
  cases cs with
  | nil => simp [splitOn]
  | cons c rest =>
    unfold splitOn
    split
    · simp
    · split <;> simp

/-- the pieces with their separators between them are the text -/
theorem intercalate_splitOn (sep : Char) (cs : List Char) : List.intercalate [sep] (splitOn sep cs) = cs := by
  induction cs with
  | nil => rfl
  | cons c rest ih =>
    unfold splitOn
    split
    next h =>
      cases hs : splitOn sep rest with
      | nil => exact absurd hs (splitOn_ne_nil sep rest)
      | cons piece pieces =>
        rw [hs] at ih
        subst h
        simp [List.intercalate, List.intersperse] at ih ⊢
        exact ih
    next =>
      cases hs : splitOn sep rest with
      | nil => exact absurd hs (splitOn_ne_nil sep rest)
      | cons piece pieces =>
        rw [hs] at ih
        cases pieces <;> simp_all [List.intercalate, List.intersperse]

end WorkflowGraph.Text
