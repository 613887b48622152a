import Mathlib.Tactic
import WorkflowGraph.Table
/-
Tables whose keys are distinct. Every operation keeps the keys distinct; in such a table the entries and the look-up say
the same, and a key that is new goes to the end.
-/
namespace WorkflowGraph

namespace Table

variable {κ α β : Type} [BEq κ]

/-- no two entries have equal keys -/
def Distinct (t : Table κ α) : Prop := t.Pairwise fun a b => (a.1 == b.1) = false

theorem distinct_nil : Distinct ([] : Table κ α) := List.Pairwise.nil

/-- whether keys are distinct does not depend on the values -/
theorem Distinct.of_keys {t : Table κ α} {t' : Table κ β} (h : Distinct t) (hk : keys t' = keys t) : Distinct t' := by
  have hkeys : (keys t).Pairwise fun a b => (a == b) = false := List.pairwise_map.2 h
  exact List.pairwise_map.1 (hk ▸ hkeys)

/-- whether keys are distinct does not depend on the order of the entries -/
theorem Distinct.perm [EquivBEq κ] {t t' : Table κ α} (h : Distinct t) (hp : t.Perm t') : Distinct t' := by
  refine (hp.pairwise_iff ?_).1 h
  intro a b hab
  rwa [BEq.comm]

/-- a key in the middle is none of those before it -/
theorem Distinct.not_has {done later : Table κ α} {e : κ × α} (h : Distinct (done ++ e :: later)) :
    has e.1 done = false := by
  have before := (List.pairwise_append.1 h).2.2
  simp only [has, List.any_eq_false]
  exact fun a ha => by simp [before a ha e List.mem_cons_self]

/-! ## Entries and look-up -/

theorem has_eq_false_iff {k : κ} {t : Table κ α} : has k t = false ↔ ∀ e ∈ t, (e.1 == k) = false := by
  simp [has]

/-- a value that is found stands in an entry whose key equals the one looked for -/
theorem exists_mem_of_get? {k : κ} {v : α} {t : Table κ α} (h : get? k t = some v) :
    ∃ k', (k' == k) = true ∧ (k', v) ∈ t := by
  induction t with
  | nil => simp [get?] at h
  | cons e rest ih =>
    obtain ⟨a, b⟩ := e
    unfold get? at h
    split at h
    · rename_i hk
      cases h
      exact ⟨a, hk, List.mem_cons_self⟩
    · obtain ⟨k', hk', hm⟩ := ih h
      exact ⟨k', hk', List.mem_cons_of_mem _ hm⟩

/-- an entry is what its key is looked up as -/
theorem get?_of_mem [EquivBEq κ] {t : Table κ α} (h : Distinct t) {k : κ} {v : α} (hm : (k, v) ∈ t) :
    get? k t = some v := by
  induction t with
  | nil => simp at hm
  | cons e rest ih =>
    obtain ⟨a, b⟩ := e
    obtain ⟨hhead, hrest⟩ := List.pairwise_cons.1 h
    rcases List.mem_cons.1 hm with heq | hmem
    · cases heq
      simp [get?]
    · have hne : (a == k) = false := hhead (k, v) hmem
      simp only [get?, hne]
      exact ih hrest hmem

theorem get?_map (f : α → β) (k : κ) (t : Table κ α) :
    get? k (t.map fun e => (e.1, f e.2)) = (get? k t).map f := by
  induction t with
  | nil => rfl
  | cons e rest ih =>
    cases hk : e.1 == k
    · simp [get?, hk, ih]
    · simp [get?, hk]

theorem distinct_map (f : κ × α → β) {t : Table κ α} (h : Distinct t) : Distinct (t.map fun e => (e.1, f e)) :=
  h.of_keys (by simp [keys])

/-! ## New keys -/

theorem put_of_not_has {k : κ} {v : α} {t : Table κ α} (h : has k t = false) : put k v t = t ++ [(k, v)] := by
  induction t with
  | nil => rfl
  | cons e rest ih =>
    rw [has_eq_false_iff, List.forall_mem_cons] at h
    simp only [put, h.1, Bool.false_eq_true, if_false, List.cons_append]
    rw [ih (has_eq_false_iff.2 h.2)]

theorem modify_of_not_has {k : κ} {f : Option α → α} {t : Table κ α} (h : has k t = false) :
    modify k f t = t ++ [(k, f none)] := by
  induction t with
  | nil => rfl
  | cons e rest ih =>
    rw [has_eq_false_iff, List.forall_mem_cons] at h
    simp only [modify, h.1, Bool.false_eq_true, if_false, List.cons_append]
    rw [ih (has_eq_false_iff.2 h.2)]

/-- a key that stands at the end is changed there -/
theorem modify_append_last [ReflBEq κ] {k : κ} {v : α} {f : Option α → α} {t : Table κ α} (h : has k t = false) :
    modify k f (t ++ [(k, v)]) = t ++ [(k, f (some v))] := by
  induction t with
  | nil => simp [modify]
  | cons e rest ih =>
    rw [has_eq_false_iff, List.forall_mem_cons] at h
    simp only [modify, h.1, Bool.false_eq_true, if_false, List.cons_append]
    rw [ih (has_eq_false_iff.2 h.2)]

/-- two changes of one key are one change -/
theorem modify_modify [ReflBEq κ] (k : κ) (f g : Option α → α) (t : Table κ α) :
    modify k f (modify k g t) = modify k (fun o => f (some (g o))) t := by
  induction t with
  | nil => simp [modify]
  | cons e rest ih =>
    cases hk : e.1 == k
    · simp only [modify, hk, Bool.false_eq_true, if_false, ih]
    · simp only [modify, hk, if_true]

theorem modify_ne_nil (k : κ) (f : Option α → α) (t : Table κ α) : modify k f t ≠ [] := by
  cases t with
  | nil => simp [modify]
  | cons e rest => unfold modify; split <;> simp

/-- what every change makes true holds of some entry after it -/
theorem exists_modify (k : κ) {f : Option α → α} {P : κ → α → Prop} (h : ∀ k' o, P k' (f o)) (t : Table κ α) :
    ∃ e ∈ modify k f t, P e.1 e.2 := by
  induction t with
  | nil => exact ⟨_, List.mem_cons_self, h _ _⟩
  | cons e rest ih =>
    unfold modify
    split
    · exact ⟨_, List.mem_cons_self, h _ _⟩
    · obtain ⟨e', he', hP⟩ := ih
      exact ⟨e', List.mem_cons_of_mem _ he', hP⟩

/-- an entry of a kind that every change keeps is still there after it -/
theorem exists_modify_of_exists {k : κ} {f : Option α → α} {P : κ → α → Prop} {t : Table κ α}
    (h : ∃ e ∈ t, P e.1 e.2) (keeps : ∀ k' v, P k' v → P k' (f (some v))) : ∃ e ∈ modify k f t, P e.1 e.2 := by
  induction t with
  | nil => simp at h
  | cons a rest ih =>
    rw [List.exists_mem_cons_iff] at h
    unfold modify
    split
    · rw [List.exists_mem_cons_iff]
      exact h.imp_left (keeps _ _)
    · rw [List.exists_mem_cons_iff]
      exact h.imp_right ih

/-- writing the value that a key has already changes nothing -/
theorem put_of_get? {k : κ} {v : α} {t : Table κ α} (h : get? k t = some v) : put k v t = t := by
  induction t with
  | nil => simp [get?] at h
  | cons e rest ih =>
    cases hk : e.1 == k
    · simp only [get?, hk, Bool.false_eq_true, if_false] at h
      simp only [put, hk, Bool.false_eq_true, if_false, ih h]
    · simp only [get?, hk, if_true, Option.some.injEq] at h
      subst h
      simp only [put, hk, if_true]

theorem putAll_of_get? {t : Table κ α} {entries : List (κ × α)} (h : ∀ e ∈ entries, get? e.1 t = some e.2) :
    putAll t entries = t := by
  unfold putAll
  induction entries with
  | nil => rfl
  | cons e rest ih =>
    rw [List.forall_mem_cons] at h
    rw [List.foldl_cons, put_of_get? h.1]
    exact ih h.2

/-! ## Chosen keys -/

/-- the entries whose keys are chosen are found as before -/
theorem get?_filter {k : κ} {p : κ → Bool} (h : ∀ k', (k' == k) = true → p k' = true) (t : Table κ α) :
    get? k (t.filter fun e => p e.1) = get? k t := by
  induction t with
  | nil => rfl
  | cons e rest ih =>
    obtain ⟨a, b⟩ := e
    by_cases hk : (a == k) = true
    · simp [get?, hk, h a hk]
    · by_cases hp : p a = true
      · simp [get?, hk, hp, ih]
      · simp [get?, hk, hp, ih]

/-- writing a chosen key comes to the same before and after the choice -/
theorem filter_put {k : κ} {v : α} {p : κ → Bool} (h : ∀ k', (k' == k) = true → p k' = true) (hk : p k = true)
    (t : Table κ α) : (put k v t).filter (fun e => p e.1) = put k v (t.filter fun e => p e.1) := by
  induction t with
  | nil => simp [put, hk]
  | cons e rest ih =>
    obtain ⟨a, b⟩ := e
    by_cases ha : (a == k) = true
    · have hp := h a ha
      simp [put, ha, hp]
    · by_cases hp : p a = true
      · simp [put, ha, hp, ih]
      · simp [put, ha, hp, ih]

/-- removing a key that is not chosen does not matter to the choice -/
theorem filter_remove {k : κ} {p : κ → Bool} (h : ∀ k', (k' == k) = true → p k' = false) (t : Table κ α) :
    (remove k t).filter (fun e => p e.1) = t.filter fun e => p e.1 := by
  induction t with
  | nil => rfl
  | cons e rest ih =>
    unfold remove at ih ⊢
    rw [List.eraseP_cons]
    by_cases he : (e.1 == k) = true
    · simp [he, h e.1 he]
    · simp [he, List.filter_cons, ih]

/-! ## Written keys -/

theorem has_put [EquivBEq κ] (k k' : κ) (v : α) (t : Table κ α) : has k' (put k v t) = ((k == k') || has k' t) := by
  rw [has_iff_get?, has_iff_get?, get?_put]
  by_cases h : (k == k') = true
  · simp [h]
  · simp [h]

theorem has_putAll [EquivBEq κ] (k : κ) (entries : List (κ × α)) (t : Table κ α) :
    has k (putAll t entries) = (has k t || has k entries) := by
  unfold putAll
  induction entries generalizing t with
  | nil => simp [has]
  | cons e rest ih =>
    rw [List.foldl_cons, ih, has_put]
    simp only [has, List.any_cons]
    rw [Bool.or_comm (e.1 == k), Bool.or_assoc]

/-- writing what distinct entries say gives their values, and keeps the others -/
theorem get?_putAll [EquivBEq κ] (k : κ) (t : Table κ α) {entries : List (κ × α)} (h : Distinct entries) :
    get? k (putAll t entries) = (get? k entries).or (get? k t) := by
  induction entries generalizing t with
  | nil => rfl
  | cons e rest ih =>
    obtain ⟨a, b⟩ := e
    obtain ⟨hhead, hrest⟩ := List.pairwise_cons.1 h
    have hput : get? k (putAll t ((a, b) :: rest)) = (get? k rest).or (get? k (put a b t)) := ih (put a b t) hrest
    rw [hput, get?_put]
    cases hk : a == k with
    | false => simp [get?, hk]
    | true =>
      have hnone : get? k rest = none := by
        rw [← Option.not_isSome_iff_eq_none, ← has_iff_get?, Bool.not_eq_true, has_eq_false_iff]
        intro e he
        rw [BEq.comm, ← BEq.congr_left hk]
        exact hhead e he
      simp [get?, hk, hnone]

/-- the keys that are written and new go to the end, in order -/
theorem keys_putAll [EquivBEq κ] (t : Table κ α) {entries : List (κ × α)} (h : Distinct entries) :
    keys (putAll t entries) = keys t ++ (keys entries).filter fun k => !has k t := by
  induction entries generalizing t with
  | nil => simp [putAll, keys]
  | cons e rest ih =>
    obtain ⟨a, b⟩ := e
    obtain ⟨hhead, hrest⟩ := List.pairwise_cons.1 h
    have hput : keys (putAll t ((a, b) :: rest)) =
        keys (put a b t) ++ (keys rest).filter fun k => !has k (put a b t) := ih (put a b t) hrest
    have hsame : ((keys rest).filter fun k => !has k (put a b t)) = (keys rest).filter fun k => !has k t := by
      apply List.filter_congr
      intro k hk
      obtain ⟨e, he, rfl⟩ := List.mem_map.1 hk
      rw [has_put, hhead e he, Bool.false_or]
    rw [hput, hsame, keys_put]
    cases hhas : has a t with
    | false => simp [keys, hhas]
    | true => simp [keys, hhas]

theorem get?_remove [EquivBEq κ] {k k' : κ} {t : Table κ α} (h : Distinct t) :
    get? k' (remove k t) = if k == k' then none else get? k' t := by
  induction t with
  | nil => simp [remove, get?]
  | cons e rest ih =>
    obtain ⟨a, b⟩ := e
    obtain ⟨hhead, hrest⟩ := List.pairwise_cons.1 h
    unfold remove at ih ⊢
    rw [List.eraseP_cons]
    cases ha : a == k with
    | true =>
      simp only [cond_true]
      cases hk : k == k' with
      | true =>
        rw [if_pos rfl, ← Option.not_isSome_iff_eq_none, ← has_iff_get?, Bool.not_eq_true, has_eq_false_iff]
        intro e he
        rw [BEq.comm, ← BEq.congr_left (BEq.trans ha hk)]
        exact hhead e he
      | false => simp [get?, BEq.congr_left ha, hk]
    | false =>
      simp only [cond_false, get?, ih hrest]
      cases hk : a == k' with
      | false => rfl
      | true =>
        have hne : (k == k') = false := by rw [BEq.comm, ← BEq.congr_left hk, ha]
        simp [hne]

theorem has_of_has_remove {k k' : κ} {t : Table κ α} (h : has k' (remove k t) = true) : has k' t = true := by
  rw [has, List.any_eq_true] at h ⊢
  obtain ⟨e, he, hk⟩ := h
  exact ⟨e, List.mem_of_mem_eraseP he, hk⟩

/-! ## What holds of every entry -/

theorem forall_put {P : κ → α → Prop} {k : κ} {v : α} {t : Table κ α} (h : ∀ e ∈ t, P e.1 e.2) (hnew : P k v)
    (hold : ∀ k', (k' == k) = true → P k' v) : ∀ e ∈ put k v t, P e.1 e.2 := by
  induction t with
  | nil =>
    intro e he
    simp only [put, List.mem_singleton] at he
    subst he
    exact hnew
  | cons a rest ih =>
    rw [List.forall_mem_cons] at h
    unfold put
    split
    · rename_i hk
      exact List.forall_mem_cons.2 ⟨hold a.1 hk, h.2⟩
    · exact List.forall_mem_cons.2 ⟨h.1, ih h.2⟩

theorem forall_modify {P : κ → α → Prop} {k : κ} {f : Option α → α} {t : Table κ α} (h : ∀ e ∈ t, P e.1 e.2)
    (hnew : P k (f none)) (hold : ∀ k' v, (k' == k) = true → P k' v → P k' (f (some v))) :
    ∀ e ∈ modify k f t, P e.1 e.2 := by
  induction t with
  | nil =>
    intro e he
    simp only [modify, List.mem_singleton] at he
    subst he
    exact hnew
  | cons a rest ih =>
    rw [List.forall_mem_cons] at h
    unfold modify
    split
    · rename_i hk
      exact List.forall_mem_cons.2 ⟨hold a.1 a.2 hk h.1, h.2⟩
    · exact List.forall_mem_cons.2 ⟨h.1, ih h.2⟩

theorem distinct_put [EquivBEq κ] {k : κ} {v : α} {t : Table κ α} (h : Distinct t) : Distinct (put k v t) := by
  induction t with
  | nil => exact List.pairwise_singleton _ _
  | cons a rest ih =>
    obtain ⟨hhead, hrest⟩ := List.pairwise_cons.1 h
    unfold put
    split
    · exact List.pairwise_cons.2 ⟨hhead, hrest⟩
    · rename_i hk
      refine List.pairwise_cons.2 ⟨?_, ih hrest⟩
      refine forall_put (P := fun k' _ => (a.1 == k') = false) hhead (by simpa using hk) ?_
      intro k' hk'
      rw [BEq.congr_right hk']
      simpa using hk

theorem distinct_putAll [EquivBEq κ] {t : Table κ α} (h : Distinct t) {entries : List (κ × α)} :
    Distinct (putAll t entries) := by
  unfold putAll
  induction entries generalizing t with
  | nil => exact h
  | cons e rest ih => exact ih (distinct_put h)

theorem distinct_modify [EquivBEq κ] {k : κ} {f : Option α → α} {t : Table κ α} (h : Distinct t) :
    Distinct (modify k f t) := by
  induction t with
  | nil => exact List.pairwise_singleton _ _
  | cons a rest ih =>
    obtain ⟨hhead, hrest⟩ := List.pairwise_cons.1 h
    unfold modify
    split
    · exact List.pairwise_cons.2 ⟨hhead, hrest⟩
    · rename_i hk
      refine List.pairwise_cons.2 ⟨?_, ih hrest⟩
      exact forall_modify (P := fun k' _ => (a.1 == k') = false) hhead (by simpa using hk) fun _ _ _ hab => hab

theorem distinct_remove (k : κ) {t : Table κ α} (h : Distinct t) : Distinct (remove k t) :=
  List.Pairwise.sublist List.eraseP_sublist h

/-! ## The same entries -/

/-- tables with the same keys in the same order are equal when the values are -/
theorem eq_of_keys [ReflBEq κ] {t t' : Table κ α} (h : Distinct t) (hkeys : keys t' = keys t)
    (hvalues : ∀ e ∈ t, get? e.1 t' = some e.2) : t' = t := by
  induction t generalizing t' with
  | nil => simpa [keys] using hkeys
  | cons e rest ih =>
    obtain ⟨a, b⟩ := e
    obtain ⟨hhead, hrest⟩ := List.pairwise_cons.1 h
    cases t' with
    | nil => simp [keys] at hkeys
    | cons e' rest' =>
      obtain ⟨a', b'⟩ := e'
      simp only [keys, List.map_cons, List.cons.injEq] at hkeys
      obtain ⟨rfl, hkeys⟩ := hkeys
      rw [List.forall_mem_cons] at hvalues
      obtain ⟨hfirst, hvalues⟩ := hvalues
      simp only [get?, BEq.rfl, if_true, Option.some.injEq] at hfirst
      subst hfirst
      rw [ih hrest hkeys]
      intro e he
      have hvalue := hvalues e he
      simpa only [get?, hhead e he, Bool.false_eq_true, if_false] using hvalue

/-- what is written over a table twice is written over it once -/
theorem putAll_putAll [EquivBEq κ] {t entries : Table κ α} (h : Distinct t) (he : Distinct entries) :
    putAll t (putAll t entries) = putAll t entries := by
  have hd : Distinct (putAll t entries) := distinct_putAll h
  have hnone : (keys t).filter (fun k => !has k t) = [] := by
    rw [List.filter_eq_nil_iff]
    intro k hk hnot
    obtain ⟨e, he, rfl⟩ := List.mem_map.1 hk
    rw [Bool.not_eq_true', has_eq_false_iff] at hnot
    have hself := hnot e he
    rw [BEq.rfl] at hself
    cases hself
  apply eq_of_keys hd
  · rw [keys_putAll t hd, keys_putAll t he, List.filter_append, hnone, List.filter_filter]
    simp
  · intro e hmem
    rw [get?_putAll _ _ hd, get?_of_mem hd hmem, Option.some_or]

end Table

end WorkflowGraph
