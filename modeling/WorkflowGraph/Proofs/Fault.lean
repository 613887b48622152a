import Mathlib.Tactic
import WorkflowGraph.Fault
/-
Operations that may fail, taken apart: a sequence succeeds when each of its steps does, and what every step keeps holds
at the end of a run.
-/
namespace WorkflowGraph

variable {ε α β σ : Type}

theorem bind_eq_ok {x : Except ε α} {f : α → Except ε β} {b : β} :
    x >>= f = .ok b ↔ ∃ a, x = .ok a ∧ f a = .ok b := by
  cases x with
  | error e => simp [bind, Except.bind]
  | ok a => simp [bind, Except.bind]

theorem map_eq_ok {x : Except ε α} {f : α → β} {b : β} : x.map f = .ok b ↔ ∃ a, x = .ok a ∧ f a = b := by
  cases x with
  | error e => simp [Except.map]
  | ok a => simp [Except.map]

/-- naming a fault otherwise changes no result -/
theorem mapError_eq_ok {ε' : Type} {x : Except ε α} {f : ε → ε'} {a : α} : x.mapError f = .ok a ↔ x = .ok a := by
  cases x with
  | error e => simp [Except.mapError]
  | ok b => simp [Except.mapError]

/-- an operation that gives a result with a property succeeds with it -/
theorem exists_ok_of_any {x : Except ε α} {p : α → Bool} (h : x.toOption.any p = true) :
    ∃ a, x = .ok a ∧ p a = true := by
  cases x with
  | error e => cases h
  | ok a => exact ⟨a, rfl, h⟩

/-- the first item of a list is read, then the others -/
theorem mapM_cons_eq_ok {f : α → Except ε β} {a : α} {l : List α} {l' : List β} :
    (a :: l).mapM f = .ok l' ↔ ∃ b bs, f a = .ok b ∧ l.mapM f = .ok bs ∧ l' = b :: bs := by
  rw [List.mapM_cons, bind_eq_ok]
  constructor
  · rintro ⟨b, hb, h⟩
    obtain ⟨bs, hbs, h⟩ := bind_eq_ok.1 h
    cases h
    exact ⟨b, bs, hb, hbs, rfl⟩
  · rintro ⟨b, bs, hb, hbs, rfl⟩
    exact ⟨b, hb, bind_eq_ok.2 ⟨bs, hbs, rfl⟩⟩

/-- every item that was read stands for one that was given -/
theorem exists_of_mem_mapM {f : α → Except ε β} {l : List α} {l' : List β} (h : l.mapM f = .ok l') {b : β}
    (hb : b ∈ l') : ∃ a ∈ l, f a = .ok b := by
  induction l generalizing l' with
  | nil => cases h; simp at hb
  | cons a l ih =>
    obtain ⟨b', bs, hb', hbs, rfl⟩ := mapM_cons_eq_ok.1 h
    rcases List.mem_cons.1 hb with rfl | hb
    · exact ⟨a, List.mem_cons_self, hb'⟩
    · obtain ⟨a', ha', hab⟩ := ih hbs hb
      exact ⟨a', List.mem_cons_of_mem _ ha', hab⟩

/-- every item that was given was read -/
theorem exists_mem_of_mapM {f : α → Except ε β} {l : List α} {l' : List β} (h : l.mapM f = .ok l') {a : α}
    (ha : a ∈ l) : ∃ b ∈ l', f a = .ok b := by
  induction l generalizing l' with
  | nil => simp at ha
  | cons a' l ih =>
    obtain ⟨b', bs, hb', hbs, rfl⟩ := mapM_cons_eq_ok.1 h
    rcases List.mem_cons.1 ha with rfl | ha
    · exact ⟨b', List.mem_cons_self, hb'⟩
    · obtain ⟨b, hb, hab⟩ := ih hbs ha
      exact ⟨b, List.mem_cons_of_mem _ hb, hab⟩

/-- items that were read stand in the order of those that were given -/
theorem forall₂_of_mapM {f : α → Except ε β} {l : List α} {l' : List β} (h : l.mapM f = .ok l') :
    List.Forall₂ (fun a b => f a = .ok b) l l' := by
  induction l generalizing l' with
  | nil =>
    cases h
    exact List.Forall₂.nil
  | cons a l ih =>
    obtain ⟨b, bs, hb, hbs, rfl⟩ := mapM_cons_eq_ok.1 h
    exact List.Forall₂.cons hb (ih hbs)

/-- what is done to each result may be done at the end -/
theorem mapM_map_result {γ : Type} (f : α → Except ε β) (g : β → γ) (l : List α) :
    l.mapM (fun a => (f a).map g) = (l.mapM f).map (List.map g) := by
  induction l with
  | nil => rfl
  | cons a l ih =>
    rw [List.mapM_cons, List.mapM_cons, ih]
    cases f a with
    | error e => rfl
    | ok b =>
      cases l.mapM f with
      | error e => rfl
      | ok bs => rfl

/-- items that can all be read are read together -/
theorem exists_mapM_of_forall {f : α → Except ε β} {R : β → α → Prop} {l : List α}
    (h : ∀ a ∈ l, ∃ b, f a = .ok b ∧ R b a) : ∃ l', l.mapM f = .ok l' ∧ List.Forall₂ R l' l := by
  induction l with
  | nil => exact ⟨[], rfl, List.Forall₂.nil⟩
  | cons a l ih =>
    rw [List.forall_mem_cons] at h
    obtain ⟨b, hb, hr⟩ := h.1
    obtain ⟨bs, hbs, hrs⟩ := ih h.2
    exact ⟨b :: bs, mapM_cons_eq_ok.2 ⟨b, bs, hb, hbs, rfl⟩, List.Forall₂.cons hr hrs⟩

/-- items are not read together because one of them is not read -/
theorem exists_error_of_mapM {f : α → Except ε β} {l : List α} {e : ε} (h : l.mapM f = .error e) :
    ∃ a ∈ l, f a = .error e := by
  induction l with
  | nil => cases h
  | cons a l ih =>
    rw [List.mapM_cons] at h
    cases ha : f a with
    | error e' =>
      rw [ha] at h
      cases h
      exact ⟨a, List.mem_cons_self, ha⟩
    | ok b =>
      rw [ha] at h
      cases hl : l.mapM f with
      | error e' =>
        rw [hl] at h
        cases h
        obtain ⟨a', ha', herror⟩ := ih hl
        exact ⟨a', List.mem_cons_of_mem a ha', herror⟩
      | ok bs =>
        rw [hl] at h
        cases h

theorem mapM_congr {f g : α → Except ε β} {l : List α} (h : ∀ a ∈ l, f a = g a) : l.mapM f = l.mapM g := by
  induction l with
  | nil => rfl
  | cons a l ih =>
    rw [List.forall_mem_cons] at h
    rw [List.mapM_cons, List.mapM_cons, h.1, ih h.2]

theorem foldlM_congr {f g : σ → α → Except ε σ} {l : List α} (h : ∀ a ∈ l, ∀ s, f s a = g s a) (s : σ) :
    l.foldlM f s = l.foldlM g s := by
  induction l generalizing s with
  | nil => rfl
  | cons a l ih =>
    rw [List.forall_mem_cons] at h
    rw [List.foldlM_cons, List.foldlM_cons, h.1 s]
    exact bind_congr fun t => ih h.2 t

theorem mapM_eq_ok {f : α → Except ε β} {g : α → β} {l : List α} (h : ∀ a ∈ l, f a = .ok (g a)) :
    l.mapM f = .ok (l.map g) := by
  induction l with
  | nil => rfl
  | cons a l ih =>
    rw [List.forall_mem_cons] at h
    rw [List.mapM_cons, h.1, ih h.2]
    rfl

/-- what every step of a run keeps holds at its end -/
theorem foldlM_induction {f : σ → α → Except ε σ} {P : σ → Prop} {l : List α} {s t : σ}
    (h : l.foldlM f s = .ok t) (hs : P s) (step : ∀ s a t, a ∈ l → f s a = .ok t → P s → P t) : P t := by
  induction l generalizing s with
  | nil => cases h; exact hs
  | cons a l ih =>
    rw [List.foldlM_cons] at h
    obtain ⟨u, hu, h⟩ := bind_eq_ok.1 h
    exact ih h (step s a u List.mem_cons_self hu hs) fun s b t hb => step s b t (List.mem_cons_of_mem a hb)

/-- what every step of a run gives to its item, and the other steps keep, holds of all items at the end -/
theorem foldlM_forall {f : σ → α → Except ε σ} {Q : α → σ → Prop} {l : List α} {s t : σ}
    (h : l.foldlM f s = .ok t) (gives : ∀ s a t, a ∈ l → f s a = .ok t → Q a t)
    (keeps : ∀ s a b t, a ∈ l → f s a = .ok t → Q b s → Q b t) : ∀ a ∈ l, Q a t := by
  induction l generalizing s with
  | nil => simp
  | cons a l ih =>
    rw [List.foldlM_cons] at h
    obtain ⟨u, hu, h⟩ := bind_eq_ok.1 h
    have keepsLater : ∀ s b c t, b ∈ l → f s b = .ok t → Q c s → Q c t :=
      fun s b c t hb => keeps s b c t (List.mem_cons_of_mem a hb)
    refine List.forall_mem_cons.2 ⟨?_, ih h (fun s b t hb => gives s b t (List.mem_cons_of_mem a hb)) keepsLater⟩
    exact foldlM_induction h (gives s a u List.mem_cons_self hu) fun s b t hb hf => keepsLater s b a t hb hf

/-! ## Operations that succeed -/

/-- an operation gives a result -/
def Succeeds (x : Except ε α) : Prop := ∃ a, x = .ok a

theorem succeeds_iff_isSome {x : Except ε α} : Succeeds x ↔ x.toOption.isSome = true := by
  cases x with
  | error e => simp [Succeeds, Except.toOption]
  | ok a => simp [Succeeds, Except.toOption]

instance (x : Except ε α) : Decidable (Succeeds x) := decidable_of_iff _ succeeds_iff_isSome.symm

theorem succeeds_ok (a : α) : Succeeds (.ok a : Except ε α) := ⟨a, rfl⟩

theorem not_succeeds_error (e : ε) : ¬ Succeeds (.error e : Except ε α) := by
  rintro ⟨a, h⟩
  cases h

theorem succeeds_bind_iff {x : Except ε α} {f : α → Except ε β} :
    Succeeds (x >>= f) ↔ ∃ a, x = .ok a ∧ Succeeds (f a) := by
  simp only [Succeeds, bind_eq_ok]
  constructor
  · rintro ⟨b, a, ha, hb⟩
    exact ⟨a, ha, b, hb⟩
  · rintro ⟨a, ha, b, hb⟩
    exact ⟨b, a, ha, hb⟩

theorem succeeds_map_iff {x : Except ε α} {f : α → β} : Succeeds (x.map f) ↔ Succeeds x := by
  simp [Succeeds, map_eq_ok]

/-- items are read together exactly when each of them is read -/
theorem succeeds_mapM_iff {f : α → Except ε β} {l : List α} : Succeeds (l.mapM f) ↔ ∀ a ∈ l, Succeeds (f a) := by
  constructor
  · rintro ⟨l', h⟩ a ha
    obtain ⟨b, -, hb⟩ := exists_mem_of_mapM h ha
    exact ⟨b, hb⟩
  · intro h
    obtain ⟨l', hl', -⟩ := exists_mapM_of_forall (R := fun _ _ => True) fun a ha => (h a ha).imp fun _ hb => ⟨hb, trivial⟩
    exact ⟨l', hl'⟩

/-- a run whose steps look at their items only succeeds exactly when each item allows its step -/
theorem succeeds_foldlM_of_iff {f : σ → α → Except ε σ} {Q : α → Prop} {l : List α} {s : σ}
    (h : ∀ u a, Succeeds (f u a) ↔ Q a) : Succeeds (l.foldlM f s) ↔ ∀ a ∈ l, Q a := by
  induction l generalizing s with
  | nil => exact iff_of_true (succeeds_ok s) (by simp)
  | cons a l ih =>
    rw [List.foldlM_cons, succeeds_bind_iff, List.forall_mem_cons, ← h s a]
    constructor
    · rintro ⟨t, ht, hrest⟩
      exact ⟨⟨t, ht⟩, ih.1 hrest⟩
    · rintro ⟨⟨t, ht⟩, hrest⟩
      exact ⟨t, ht, ih.2 hrest⟩

/-! ## Turns of a run -/

/-- a run over a list from `s` stands at `u` when it is the turn of `a` -/
def Visits (f : σ → α → Except ε σ) (s : σ) (l : List α) (a : α) (u : σ) : Prop :=
  ∃ before after, l = before ++ a :: after ∧ before.foldlM f s = .ok u

section

variable {f : σ → α → Except ε σ} {s t u : σ} {l : List α} {a b : α}

theorem Visits.mem (h : Visits f s l a u) : a ∈ l := by
  obtain ⟨before, after, rfl, -⟩ := h
  exact List.mem_append_right _ List.mem_cons_self

theorem visits_nil : ¬ Visits f s [] a u := fun h => List.not_mem_nil h.mem

/-- the first item has its turn at once, the others when its step is done -/
theorem visits_cons : Visits f s (b :: l) a u ↔ (a = b ∧ u = s) ∨ ∃ t, f s b = .ok t ∧ Visits f t l a u := by
  constructor
  · rintro ⟨_ | ⟨c, before⟩, after, hl, hrun⟩
    · cases hl
      cases hrun
      exact Or.inl ⟨rfl, rfl⟩
    · cases hl
      rw [List.foldlM_cons] at hrun
      obtain ⟨t, ht, hrun⟩ := bind_eq_ok.1 hrun
      exact Or.inr ⟨t, ht, before, after, rfl, hrun⟩
  · rintro (⟨rfl, rfl⟩ | ⟨t, ht, before, after, rfl, hrun⟩)
    · exact ⟨[], l, rfl, rfl⟩
    · refine ⟨b :: before, after, rfl, ?_⟩
      rw [List.foldlM_cons]
      exact bind_eq_ok.2 ⟨t, ht, hrun⟩

/-- what every step keeps holds whenever it is some item's turn -/
theorem Visits.induction {P : σ → Prop} (h : Visits f s l a u) (hs : P s)
    (step : ∀ s a t, a ∈ l → f s a = .ok t → P s → P t) : P u := by
  obtain ⟨before, after, rfl, hrun⟩ := h
  exact foldlM_induction hrun hs fun s b t hb => step s b t (List.mem_append_left _ hb)

/-- a run comes to its end exactly when every item can have its turn -/
theorem succeeds_foldlM_iff : Succeeds (l.foldlM f s) ↔ ∀ a u, Visits f s l a u → Succeeds (f u a) := by
  induction l generalizing s with
  | nil => exact iff_of_true ⟨s, rfl⟩ fun _ _ h => absurd h visits_nil
  | cons b l ih =>
    rw [List.foldlM_cons]
    constructor
    · rintro ⟨t, h⟩ a u hvisit
      obtain ⟨v, hv, h⟩ := bind_eq_ok.1 h
      rcases visits_cons.1 hvisit with ⟨rfl, rfl⟩ | ⟨v', hv', hvisit⟩
      · exact ⟨v, hv⟩
      · cases hv.symm.trans hv'
        exact ih.1 ⟨t, h⟩ a u hvisit
    · intro h
      obtain ⟨v, hv⟩ := h b s (visits_cons.2 (Or.inl ⟨rfl, rfl⟩))
      obtain ⟨t, ht⟩ := ih.2 fun a u hvisit => h a u (visits_cons.2 (Or.inr ⟨v, hv, hvisit⟩))
      exact ⟨t, bind_eq_ok.2 ⟨v, hv, ht⟩⟩

/-- what only certain steps bring about, and no step takes away, holds at the end when it held at first or one of these
steps was made -/
theorem foldlM_brings {P : σ → Prop} {Q : α → σ → Prop} (h : l.foldlM f s = .ok t)
    (step : ∀ a u v, Visits f s l a u → f u a = .ok v → (P v ↔ P u ∨ Q a u)) :
    P t ↔ P s ∨ ∃ a u, Visits f s l a u ∧ Q a u := by
  induction l generalizing s with
  | nil =>
    cases h
    simp [visits_nil]
  | cons b l ih =>
    rw [List.foldlM_cons] at h
    obtain ⟨v, hv, h⟩ := bind_eq_ok.1 h
    have hlater : ∀ a u, Visits f v l a u → Visits f s (b :: l) a u :=
      fun a u hvisit => visits_cons.2 (Or.inr ⟨v, hv, hvisit⟩)
    rw [ih h fun a u w hvisit => step a u w (hlater a u hvisit),
      step b s v (visits_cons.2 (Or.inl ⟨rfl, rfl⟩)) hv, or_assoc]
    refine or_congr_right ⟨?_, ?_⟩
    · rintro (hq | ⟨a, u, hvisit, hq⟩)
      · exact ⟨b, s, visits_cons.2 (Or.inl ⟨rfl, rfl⟩), hq⟩
      · exact ⟨a, u, hlater a u hvisit, hq⟩
    · rintro ⟨a, u, hvisit, hq⟩
      rcases visits_cons.1 hvisit with ⟨rfl, rfl⟩ | ⟨v', hv', hvisit⟩
      · exact Or.inl hq
      · cases hv.symm.trans hv'
        exact Or.inr ⟨a, u, hvisit, hq⟩

end

/-! ## Operations that ask for no scalar -/

/-- an operation does not fail for want of a scalar -/
def Scalar (x : Except Fault α) : Prop := ∀ kind, x ≠ .error (.notScalar kind)

theorem scalar_ok (a : α) : Scalar (.ok a : Except Fault α) := by
  intro kind h
  cases h

theorem scalar_bind {x : Except Fault α} {f : α → Except Fault β} (hx : Scalar x)
    (hf : ∀ a, x = .ok a → Scalar (f a)) : Scalar (x >>= f) := by
  cases x with
  | error e =>
    intro kind h
    cases h
    exact hx kind rfl
  | ok a => exact hf a rfl

theorem scalar_map {x : Except Fault α} (hx : Scalar x) (f : α → β) : Scalar (x.map f) := by
  cases x with
  | error e =>
    intro kind h
    cases h
    exact hx kind rfl
  | ok a => exact scalar_ok _

theorem scalar_mapM {f : α → Except Fault β} {l : List α} (h : ∀ a ∈ l, Scalar (f a)) : Scalar (l.mapM f) := by
  induction l with
  | nil => exact scalar_ok _
  | cons a l ih =>
    rw [List.forall_mem_cons] at h
    rw [List.mapM_cons]
    exact scalar_bind h.1 fun b _ => scalar_bind (ih h.2) fun bs _ => scalar_ok _

/-- no step of a run asks for a scalar when none does that starts where the run may be -/
theorem scalar_foldlM {f : σ → α → Except Fault σ} {P : σ → Prop} {l : List α} {s : σ} (hs : P s)
    (scalar : ∀ s a, a ∈ l → P s → Scalar (f s a)) (step : ∀ s a t, a ∈ l → f s a = .ok t → P s → P t) :
    Scalar (l.foldlM f s) := by
  induction l generalizing s with
  | nil => exact scalar_ok _
  | cons a l ih =>
    rw [List.foldlM_cons]
    refine scalar_bind (scalar s a List.mem_cons_self hs) fun t ht => ?_
    exact ih (step s a t List.mem_cons_self ht hs) (fun s b hb => scalar s b (List.mem_cons_of_mem a hb))
      fun s b t hb => step s b t (List.mem_cons_of_mem a hb)

end WorkflowGraph
