import WorkflowGraph.Proofs.Fault
import WorkflowGraph.Proofs.Number.Double
import WorkflowGraph.Rows
/-
Neighbours on a row. A neighbour is one of the candidates and stands on the side that was asked for, and the search for
one fails for numbers only. Candidates on other rows change nothing. Places at whole numbers that doubles hold are
compared as these numbers are.
-/
namespace WorkflowGraph

namespace Rows

variable {α : Type} {view : α → Node}

/-- the nearest is the best so far, or a candidate that the distance makes a neighbour -/
theorem neighbour_of_nearest {node : Node} {distance : Place → Place → Except Fault (Option Double)} {origin : Place}
    {best : Option (Near α)} {l : List α} {found : Near α}
    (h : nearest view node distance origin best l = .ok (some found)) :
    best = some found ∨ (found.item ∈ l ∧ ∃ place, (view found.item).place = .ok place ∧
      distance origin place = .ok (some found.distance)) := by
  induction l generalizing best with
  | nil =>
    cases h
    exact Or.inl rfl
  | cons c rest ih =>
    have later : ∀ best, nearest view node distance origin best rest = .ok (some found) →
        best = some found ∨ (found.item ∈ c :: rest ∧ ∃ place, (view found.item).place = .ok place ∧
          distance origin place = .ok (some found.distance)) :=
      fun best hbest => (ih hbest).imp_right fun hmem => ⟨List.mem_cons_of_mem c hmem.1, hmem.2⟩
    unfold nearest at h
    split at h
    · exact later best h
    · obtain ⟨place, hplace, h⟩ := bind_eq_ok.1 h
      obtain ⟨distance, hdistance, h⟩ := bind_eq_ok.1 h
      split at h
      · exact later best h
      · rename_i d
        rcases later _ h with hbest | hmem
        · -- the nearer of the best so far and this candidate
          unfold nearer at hbest
          split at hbest
          · cases hbest
            exact Or.inr ⟨List.mem_cons_self, place, hplace, hdistance⟩
          · split at hbest
            · cases hbest
              exact Or.inr ⟨List.mem_cons_self, place, hplace, hdistance⟩
            · exact Or.inl hbest
        · exact Or.inr hmem

/-- the neighbour to the right is a candidate, and it stands right of the node and the least distance -/
theorem right_of_successor {tolerance minDx : Numeric} {node : Node} {l : List α} {found : α}
    (h : successor view tolerance minDx node l = .ok (some found)) :
    found ∈ l ∧ ∃ origin place least, node.place = .ok origin ∧ (view found).place = .ok place ∧
      minDx.toDouble = .ok least ∧ place.x.le (origin.x.add least) = false := by
  obtain ⟨origin, horigin, h⟩ := bind_eq_ok.1 h
  obtain ⟨near, hnear, h⟩ := bind_eq_ok.1 h
  obtain ⟨n, rfl, rfl⟩ := Option.map_eq_some_iff.1 (Except.ok.inj h)
  rcases neighbour_of_nearest hnear with hbest | ⟨hmem, place, hplace, hdistance⟩
  · cases hbest
  · obtain ⟨least, hleast, hdistance⟩ := bind_eq_ok.1 hdistance
    refine ⟨hmem, origin, place, least, horigin, hplace, hleast, ?_⟩
    cases hle : place.x.le (origin.x.add least) with
    | false => rfl
    | true =>
      simp only [hle, Bool.true_or, if_true] at hdistance
      cases hdistance

/-- the neighbour to the left is a candidate, and the node stands right of it -/
theorem left_of_predecessor {tolerance : Numeric} {node : Node} {l : List α} {found : α}
    (h : predecessor view tolerance node l = .ok (some found)) :
    found ∈ l ∧ ∃ origin place, node.place = .ok origin ∧ (view found).place = .ok place ∧
      origin.x.le place.x = false := by
  obtain ⟨origin, horigin, h⟩ := bind_eq_ok.1 h
  obtain ⟨near, hnear, h⟩ := bind_eq_ok.1 h
  obtain ⟨n, rfl, rfl⟩ := Option.map_eq_some_iff.1 (Except.ok.inj h)
  rcases neighbour_of_nearest hnear with hbest | ⟨hmem, place, hplace, hdistance⟩
  · cases hbest
  · refine ⟨hmem, origin, place, horigin, hplace, ?_⟩
    cases hle : origin.x.le place.x with
    | false => rfl
    | true =>
      rw [leftDistance, hle, Bool.true_or, if_pos rfl] at hdistance
      cases hdistance

theorem mem_of_successor {tolerance minDx : Numeric} {node : Node} {l : List α} {found : α}
    (h : successor view tolerance minDx node l = .ok (some found)) : found ∈ l :=
  (right_of_successor h).1

theorem mem_of_predecessor {tolerance : Numeric} {node : Node} {l : List α} {found : α}
    (h : predecessor view tolerance node l = .ok (some found)) : found ∈ l :=
  (left_of_predecessor h).1

/-! ## Searches that succeed -/

/-- a search succeeds when the distance to every candidate of another name can be told -/
theorem succeeds_nearest_iff {node : Node} {distance : Place → Place → Except Fault (Option Double)} {origin : Place}
    {best : Option (Near α)} {l : List α} :
    Succeeds (nearest view node distance origin best l) ↔
      ∀ c ∈ l, ((view c).name == node.name) = false →
        ∃ place, (view c).place = .ok place ∧ Succeeds (distance origin place) := by
  induction l generalizing best with
  | nil => simp [nearest, succeeds_ok]
  | cons c rest ih =>
    rw [nearest, List.forall_mem_cons]
    split
    · rename_i hsame
      rw [ih]
      simp [hsame]
    · rename_i hother
      rw [Bool.not_eq_true] at hother
      simp only [hother, true_implies]
      rw [succeeds_bind_iff]
      constructor
      · rintro ⟨place, hplace, h⟩
        obtain ⟨d, hd, h⟩ := succeeds_bind_iff.1 h
        refine ⟨⟨place, hplace, d, hd⟩, ?_⟩
        cases d with
        | none => exact ih.1 h
        | some d => exact ih.1 h
      · rintro ⟨⟨place, hplace, d, hd⟩, hrest⟩
        refine ⟨place, hplace, succeeds_bind_iff.2 ⟨d, hd, ?_⟩⟩
        cases d with
        | none => exact ih.2 hrest
        | some d => exact ih.2 hrest

theorem succeeds_rightDistance_iff {tolerance minDx : Numeric} {a b : Place} :
    Succeeds (rightDistance tolerance minDx a b) ↔ Succeeds minDx.toDouble := by
  rw [rightDistance, succeeds_bind_iff]
  exact exists_congr fun _ => and_iff_left (succeeds_ok _)

theorem succeeds_successor_iff {tolerance minDx : Numeric} {node : Node} {l : List α} :
    Succeeds (successor view tolerance minDx node l) ↔
      Succeeds node.place ∧ ∀ c ∈ l, ((view c).name == node.name) = false →
        Succeeds (view c).place ∧ Succeeds minDx.toDouble := by
  have hsearch : ∀ origin, Succeeds (nearest view node (rightDistance tolerance minDx) origin none l) ↔
      ∀ c ∈ l, ((view c).name == node.name) = false → Succeeds (view c).place ∧ Succeeds minDx.toDouble := by
    intro origin
    rw [succeeds_nearest_iff]
    simp only [succeeds_rightDistance_iff, exists_and_right]
    rfl
  rw [successor, succeeds_bind_iff]
  constructor
  · rintro ⟨origin, horigin, h⟩
    obtain ⟨found, hfound, -⟩ := succeeds_bind_iff.1 h
    exact ⟨⟨origin, horigin⟩, (hsearch origin).1 ⟨found, hfound⟩⟩
  · rintro ⟨⟨origin, horigin⟩, hall⟩
    obtain ⟨found, hfound⟩ := (hsearch origin).2 hall
    exact ⟨origin, horigin, succeeds_bind_iff.2 ⟨found, hfound, succeeds_ok _⟩⟩

/-- the distance to the left can be told unless a square on the way is too large -/
theorem succeeds_leftDistance_iff {tolerance : Numeric} {a b : Place} :
    Succeeds (leftDistance tolerance a b) ↔ (a.x.le b.x = false → sameRow tolerance a b = true →
      Succeeds (square (b.x.sub a.x)) ∧ Succeeds (square (b.y.sub a.y))) := by
  rw [leftDistance]
  split
  · rename_i h
    rw [Bool.or_eq_true, Bool.not_eq_true'] at h
    refine iff_of_true (succeeds_ok _) fun hle hrow => ?_
    simp [hle, hrow] at h
  · rename_i h
    rw [Bool.or_eq_true, not_or, Bool.not_eq_true, Bool.not_eq_true', Bool.not_eq_false] at h
    simp only [h.1, h.2, true_implies]
    rw [succeeds_bind_iff]
    constructor
    · rintro ⟨dx, hdx, h⟩
      obtain ⟨dy, hdy, -⟩ := succeeds_bind_iff.1 h
      exact ⟨⟨dx, hdx⟩, dy, hdy⟩
    · rintro ⟨⟨dx, hdx⟩, dy, hdy⟩
      exact ⟨dx, hdx, succeeds_bind_iff.2 ⟨dy, hdy, succeeds_ok _⟩⟩

theorem succeeds_predecessor_iff {tolerance : Numeric} {node : Node} {origin : Place} {l : List α}
    (horigin : node.place = .ok origin) :
    Succeeds (predecessor view tolerance node l) ↔
      ∀ c ∈ l, ((view c).name == node.name) = false → ∃ place, (view c).place = .ok place ∧
        (origin.x.le place.x = false → sameRow tolerance origin place = true →
          Succeeds (square (place.x.sub origin.x)) ∧ Succeeds (square (place.y.sub origin.y))) := by
  rw [predecessor, succeeds_bind_iff]
  simp only [← succeeds_leftDistance_iff]
  have hsearch : Succeeds (nearest view node (leftDistance tolerance) origin none l) ↔ _ := succeeds_nearest_iff
  rw [← hsearch]
  constructor
  · rintro ⟨origin', horigin', h⟩
    cases horigin.symm.trans horigin'
    obtain ⟨found, hfound, -⟩ := succeeds_bind_iff.1 h
    exact ⟨found, hfound⟩
  · rintro ⟨found, hfound⟩
    exact ⟨origin, horigin, succeeds_bind_iff.2 ⟨found, hfound, succeeds_ok _⟩⟩

/-! ## Searches that find nothing -/

/-- where no candidate of another name is a neighbour, the best stays what it was -/
theorem nearest_eq_self {node : Node} {distance : Place → Place → Except Fault (Option Double)} {origin : Place}
    {l : List α} (h : ∀ c ∈ l, ((view c).name == node.name) = false →
      ∃ place, (view c).place = .ok place ∧ distance origin place = .ok none) (best : Option (Near α)) :
    nearest view node distance origin best l = .ok best := by
  induction l with
  | nil => rfl
  | cons c rest ih =>
    rw [List.forall_mem_cons] at h
    rw [nearest]
    split
    · exact ih h.2
    · rename_i hother
      obtain ⟨place, hplace, hnone⟩ := h.1 (Bool.not_eq_true _ ▸ hother)
      simp only [hplace, hnone, bind, Except.bind]
      exact ih h.2

/-- nodes that do not stand right of a node, or stand on other rows, do not follow it -/
theorem successor_eq_none {tolerance minDx : Numeric} {node : Node} {origin : Place} {least : Double} {l : List α}
    (horigin : node.place = .ok origin) (hleast : minDx.toDouble = .ok least)
    (h : ∀ c ∈ l, ((view c).name == node.name) = false → ∃ place, (view c).place = .ok place ∧
      (place.x.le (origin.x.add least) = true ∨ sameRow tolerance origin place = false)) :
    successor view tolerance minDx node l = .ok none := by
  have hnone : nearest view node (rightDistance tolerance minDx) origin none l = .ok none := by
    refine nearest_eq_self (fun c hc hother => ?_) none
    obtain ⟨place, hplace, hfar⟩ := h c hc hother
    refine ⟨place, hplace, ?_⟩
    have hcond : (place.x.le (origin.x.add least) || !sameRow tolerance origin place) = true := by
      rcases hfar with hfar | hfar <;> simp [hfar]
    show minDx.toDouble >>= _ = _
    rw [hleast]
    exact congrArg Except.ok (if_pos hcond)
  simp only [successor, horigin, hnone, bind, Except.bind]
  rfl

/-! ## Candidates on other rows -/

/-- whether two nodes stand on one row; what stands beyond the doubles is on none -/
def onRow (tolerance : Numeric) (a b : Node) : Bool :=
  match a.place, b.place with
  | .ok p, .ok q => sameRow tolerance p q
  | _, _ => false

theorem onRow_eq {tolerance : Numeric} {a b : Node} {p q : Place} (ha : a.place = .ok p) (hb : b.place = .ok q) :
    onRow tolerance a b = sameRow tolerance p q := by
  unfold onRow
  rw [ha, hb]

theorem nearest_append (node : Node) (distance : Place → Place → Except Fault (Option Double)) (origin : Place)
    (best : Option (Near α)) (l l' : List α) :
    nearest view node distance origin best (l ++ l') =
      nearest view node distance origin best l >>= fun best => nearest view node distance origin best l' := by
  induction l generalizing best with
  | nil => rfl
  | cons c rest ih =>
    rw [List.cons_append, nearest, nearest]
    split
    · exact ih best
    · cases (view c).place with
      | error e => rfl
      | ok place =>
        simp only [bind, Except.bind]
        cases distance origin place with
        | error e => rfl
        | ok d =>
          cases d with
          | none => exact ih best
          | some d => exact ih _

/-- a distance to the right is told on the row only -/
theorem sameRow_of_rightDistance {tolerance minDx : Numeric} {a b : Place} {d : Double}
    (h : rightDistance tolerance minDx a b = .ok (some d)) : sameRow tolerance a b = true := by
  obtain ⟨least, -, h⟩ := bind_eq_ok.1 h
  by_contra hrow
  rw [Bool.not_eq_true] at hrow
  simp [hrow, pure, Except.pure] at h

/-- what follows a node stands on its row -/
theorem onRow_of_successor {tolerance minDx : Numeric} {node : Node} {l : List α} {found : α}
    (h : successor view tolerance minDx node l = .ok (some found)) : onRow tolerance node (view found) = true := by
  obtain ⟨origin, horigin, h⟩ := bind_eq_ok.1 h
  obtain ⟨near, hnear, h⟩ := bind_eq_ok.1 h
  obtain ⟨n, rfl, rfl⟩ := Option.map_eq_some_iff.1 (Except.ok.inj h)
  rcases neighbour_of_nearest hnear with hbest | ⟨-, place, hplace, hdistance⟩
  · cases hbest
  · rw [onRow_eq horigin hplace]
    exact sameRow_of_rightDistance hdistance

/-- **A candidate on another row, or of the same name, is as good as none.** -/
theorem successor_concat {tolerance minDx : Numeric} {node : Node} {l : List α} {c : α} {found : Option α}
    (hapart : ((view c).name == node.name) = true ∨ onRow tolerance node (view c) = false)
    (h : successor view tolerance minDx node (l ++ [c]) = .ok found) :
    successor view tolerance minDx node l = .ok found := by
  obtain ⟨origin, horigin, h⟩ := bind_eq_ok.1 h
  obtain ⟨near, hnear, hfound⟩ := bind_eq_ok.1 h
  rw [nearest_append] at hnear
  obtain ⟨best, hbest, hlast⟩ := bind_eq_ok.1 hnear
  have hsame : near = best := by
    rw [nearest] at hlast
    split at hlast
    · exact (Except.ok.inj hlast).symm
    · rename_i hother
      obtain ⟨place, hplace, hlast⟩ := bind_eq_ok.1 hlast
      obtain ⟨d, hd, hlast⟩ := bind_eq_ok.1 hlast
      have hrow := hapart.resolve_left hother
      rw [onRow_eq horigin hplace] at hrow
      cases d with
      | none => exact (Except.ok.inj hlast).symm
      | some d => cases hrow.symm.trans (sameRow_of_rightDistance hd)
  rw [successor, horigin]
  show (do let found ← nearest view node _ origin none l; _) = _
  rw [hbest, ← hsame]
  exact hfound

/-! ## Places at whole numbers -/

/-- a place is the one at two whole numbers, exactly -/
structure Exact (p : Place) (x y : Int) : Prop where
  x : p.x.units? = some (x * Double.one)
  y : p.y.units? = some (y * Double.one)

theorem exists_place {n : Node} {x y : Int} (hposition : n.get "position" = .list [.int x, .int y])
    (hx : x.natAbs ≤ 2 ^ Double.significantBits) (hy : y.natAbs ≤ 2 ^ Double.significantBits) :
    ∃ p, n.place = .ok p ∧ Exact p x y := by
  obtain ⟨a, ha, hax⟩ := Numeric.exists_toDouble hx
  obtain ⟨b, hb, hby⟩ := Numeric.exists_toDouble hy
  refine ⟨⟨a, b⟩, ?_, hax, hby⟩
  unfold Node.place
  rw [hposition]
  simp only [Numeric.ofValue?, ha, hb, bind, Except.bind]
  rfl

/-- what stands left of a place does not stand further right than that -/
theorem le_add_of_exact {a b : Place} {x y x' y' k : Int} {least : Double} (ha : Exact a x y) (hb : Exact b x' y')
    (hle : x' ≤ x) (hleast : least.units? = some k) (hk : 0 ≤ k) : b.x.le (a.x.add least) = true := by
  obtain ⟨sum, hsum, hright⟩ := Double.le_add (Double.rank?_of_units? ha.x) hleast hk
  refine (Double.le_iff (Double.rank?_of_units? hb.x) hsum).2 (le_trans ?_ hright)
  exact Int.mul_le_mul_of_nonneg_right hle (Int.natCast_nonneg _)

/-- places further apart than the tolerance are on different rows -/
theorem sameRow_of_exact {tolerance : Int} {a b : Place} {x y x' y' : Int} (ha : Exact a x y) (hb : Exact b x' y')
    (hheld : (y - y').natAbs ≤ 2 ^ Double.significantBits) (hfar : tolerance < (y - y').natAbs) :
    sameRow (.whole tolerance) a b = false := by
  have hunits : y * Double.one + -(y' * Double.one) = (y - y') * Double.one := by ring
  have hsub : (a.y.sub b.y).units? = some ((y - y') * Double.one) := by
    have hfits : Double.Fits (y * Double.one + -(y' * Double.one)).natAbs := by
      rw [hunits]
      exact Double.fits_whole hheld
    rw [← hunits]
    exact Double.units?_add ha.y (Double.units?_neg hb.y) hfits
  have habs := Double.units?_abs hsub
  rw [Int.natAbs_mul, Int.natAbs_natCast, Nat.cast_mul] at habs
  have hlt := Int.mul_lt_mul_of_pos_right hfar Double.one_pos
  rw [sameRow, Numeric.le, ← Bool.not_eq_true, Double.leInt_iff habs, not_le]
  exact hlt

/-! ## Faults -/

theorem scalar_toDouble (x : Numeric) : Scalar x.toDouble := by
  intro kind h
  cases x with
  | double x => cases h
  | whole i =>
    simp only [Numeric.toDouble] at h
    split at h <;> cases h

theorem scalar_place (n : Node) : Scalar n.place := by
  unfold Node.place
  split
  · split
    · exact scalar_bind (scalar_toDouble _) fun _ _ => scalar_bind (scalar_toDouble _) fun _ _ => scalar_ok _
    · exact scalar_ok _
  · exact scalar_ok _

theorem scalar_square (x : Double) : Scalar (square x) := by
  intro kind h
  unfold square at h
  split at h
  · split at h <;> cases h
  · cases h

theorem scalar_rightDistance (tolerance minDx : Numeric) (a b : Place) :
    Scalar (rightDistance tolerance minDx a b) :=
  scalar_bind (scalar_toDouble _) fun _ _ => scalar_ok _

theorem scalar_leftDistance (tolerance : Numeric) (a b : Place) : Scalar (leftDistance tolerance a b) := by
  unfold leftDistance
  split
  · exact scalar_ok _
  · exact scalar_bind (scalar_square _) fun _ _ => scalar_bind (scalar_square _) fun _ _ => scalar_ok _

theorem scalar_nearest {node : Node} {distance : Place → Place → Except Fault (Option Double)} {origin : Place}
    (hd : ∀ a b, Scalar (distance a b)) (best : Option (Near α)) (l : List α) :
    Scalar (nearest view node distance origin best l) := by
  induction l generalizing best with
  | nil => exact scalar_ok _
  | cons c rest ih =>
    unfold nearest
    split
    · exact ih best
    · refine scalar_bind (scalar_place _) fun place _ => scalar_bind (hd _ _) fun d _ => ?_
      cases d with
      | none => exact ih best
      | some d => exact ih _

theorem scalar_successor (tolerance minDx : Numeric) (node : Node) (l : List α) :
    Scalar (successor view tolerance minDx node l) :=
  scalar_bind (scalar_place _) fun _ _ =>
    scalar_bind (scalar_nearest (scalar_rightDistance _ _) _ _) fun _ _ => scalar_ok _

theorem scalar_predecessor (tolerance : Numeric) (node : Node) (l : List α) :
    Scalar (predecessor view tolerance node l) :=
  scalar_bind (scalar_place _) fun _ _ =>
    scalar_bind (scalar_nearest (scalar_leftDistance _) _ _) fun _ _ => scalar_ok _

end Rows

end WorkflowGraph
