/-
Tables that keep the order in which their keys came: association lists with one entry per key. A key that is written
again keeps its place and takes the new value. Keys are compared by `==`, which may identify keys that differ in form;
the first form stays.
-/
namespace WorkflowGraph

/-- entries in the order of their keys' first appearance -/
abbrev Table (κ α : Type) := List (κ × α)

namespace Table

variable {κ α : Type} [BEq κ]

/-- the value of a key -/
def get? (k : κ) : Table κ α → Option α
  | [] => none
  | (k', v) :: rest => if k' == k then some v else get? k rest

def has (k : κ) (t : Table κ α) : Bool := t.any fun e => e.1 == k

/-- the table with the value of a key replaced, or with a new entry at the end -/
def put (k : κ) (v : α) : Table κ α → Table κ α
  | [] => [(k, v)]
  | (k', v') :: rest => if k' == k then (k', v) :: rest else (k', v') :: put k v rest

/-- the table with the value of a key changed, `f none` standing for the change of a key that is new -/
def modify (k : κ) (f : Option α → α) : Table κ α → Table κ α
  | [] => [(k, f none)]
  | (k', v') :: rest => if k' == k then (k', f (some v')) :: rest else (k', v') :: modify k f rest

/-- the table without a key -/
def remove (k : κ) (t : Table κ α) : Table κ α := t.eraseP fun e => e.1 == k

/-- the entries of a list one after another -/
def ofList (entries : List (κ × α)) : Table κ α := entries.foldl (fun t e => put e.1 e.2 t) []

/-- the table with entries written over it -/
def putAll (t : Table κ α) (entries : List (κ × α)) : Table κ α := entries.foldl (fun t e => put e.1 e.2 t) t

def keys (t : Table κ α) : List κ := t.map (·.1)

theorem has_iff_get? (k : κ) (t : Table κ α) : has k t = (get? k t).isSome := by
  induction t with
  | nil => rfl
  | cons e rest ih =>
    obtain ⟨k', v⟩ := e
    cases h : k' == k <;> simp_all [has, get?]

/-- equal keys have the same value -/
theorem get?_congr [EquivBEq κ] {k k' : κ} (h : (k == k') = true) (t : Table κ α) : get? k t = get? k' t := by
  induction t with
  | nil => rfl
  | cons e rest ih =>
    obtain ⟨a, b⟩ := e
    simp only [get?, BEq.congr_right h, ih]

/-- a key that was written has its new value, all others keep theirs -/
theorem get?_put [EquivBEq κ] (k k' : κ) (v : α) (t : Table κ α) :
    get? k' (put k v t) = if k == k' then some v else get? k' t := by
  induction t with
  | nil => rfl
  | cons e rest ih =>
    obtain ⟨a, b⟩ := e
    cases h : a == k
    · cases h' : a == k' <;> simp_all [put, get?]
      intro hk
      exact absurd (BEq.trans h' (BEq.symm hk)) (by simp [h])
    · have := BEq.congr_left h (c := k')
      simp_all [put, get?]

/-- a key that was changed has its new value, all others keep theirs -/
theorem get?_modify [EquivBEq κ] (k k' : κ) (f : Option α → α) (t : Table κ α) :
    get? k' (modify k f t) = if k == k' then some (f (get? k t)) else get? k' t := by
  induction t with
  | nil => rfl
  | cons e rest ih =>
    obtain ⟨a, b⟩ := e
    cases h : a == k
    · cases h' : a == k' <;> simp_all [modify, get?]
      intro hk
      exact absurd (BEq.trans h' (BEq.symm hk)) (by simp [h])
    · have := BEq.congr_left h (c := k')
      simp_all [modify, get?]

/-- writing a key keeps the order of the keys and adds a new key at the end -/
theorem keys_put (k : κ) (v : α) (t : Table κ α) :
    keys (put k v t) = if has k t then keys t else keys t ++ [k] := by
  induction t with
  | nil => rfl
  | cons e rest ih =>
    obtain ⟨a, b⟩ := e
    cases h : a == k
    · have hkeys : keys (put k v ((a, b) :: rest)) = a :: keys (put k v rest) := by simp [put, keys, h]
      have hhas : has k ((a, b) :: rest) = has k rest := by simp [has, h]
      rw [hkeys, ih, hhas]
      split <;> rfl
    · simp [put, h, has, keys]

/-- changing a key keeps the order of the keys and adds a new key at the end -/
theorem keys_modify (k : κ) (f : Option α → α) (t : Table κ α) :
    keys (modify k f t) = if has k t then keys t else keys t ++ [k] := by
  induction t with
  | nil => rfl
  | cons e rest ih =>
    obtain ⟨a, b⟩ := e
    cases h : a == k
    · have hkeys : keys (modify k f ((a, b) :: rest)) = a :: keys (modify k f rest) := by simp [modify, keys, h]
      have hhas : has k ((a, b) :: rest) = has k rest := by simp [has, h]
      rw [hkeys, ih, hhas]
      split <;> rfl
    · simp [modify, h, has, keys]

end Table

end WorkflowGraph
