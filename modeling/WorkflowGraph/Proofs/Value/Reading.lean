import WorkflowGraph.Proofs.Fault
import WorkflowGraph.Proofs.Value
import WorkflowGraph.Yaml.Document
/-
Values that are read from texts. Whatever the text, no object of the value names a field twice: a field that is repeated
takes its last value in its first place.

- `Json.unambiguous_of_parse?`: values of JSON texts.
- `Yaml.unambiguous_of_parse`: values of YAML texts.
-/
namespace WorkflowGraph

namespace Value

/-- an object of fields that came one after another names none twice -/
theorem unambiguous_ofList {entries : List (Key × Value)} (h : ∀ e ∈ entries, e.2.Unambiguous) :
    (Value.object (Table.ofList entries)).Unambiguous := by
  have run : ∀ t : Fields, (∀ e ∈ t, e.2.Unambiguous) →
      ∀ e ∈ Table.putAll t entries, e.2.Unambiguous := by
    unfold Table.putAll
    induction entries with
    | nil => exact fun _ ht => ht
    | cons e rest ih =>
      intro t ht
      rw [List.forall_mem_cons] at h
      exact ih h.2 _ (Table.forall_put (P := fun _ v => Unambiguous v) ht h.1 fun _ _ => h.1)
  exact .object (Table.distinct_putAll Table.distinct_nil) (run [] (by simp))

end Value

namespace Json

open Value

/-! ## JSON -/

theorem toKey?_readMagnitude {negative : Bool} {cs : List Char} {r : Value × List Char}
    (h : readMagnitude negative cs = some r) : ∃ k, r.1.toKey? = some k := by
  unfold readMagnitude at h
  dsimp only at h
  obtain ⟨-, h⟩ := Option.ite_none_left_eq_some.1 h
  -- a leading zero or not, and a whole number or a double
  split at h
  all_goals
    split at h
    all_goals
      cases h
      exact ⟨_, rfl⟩

theorem toKey?_readWord {cs : List Char} {r : Value × List Char} (h : readWord cs = some r) :
    ∃ k, r.1.toKey? = some k := by
  have hscalar : ∀ e ∈ words, ∃ k, e.2.toKey? = some k := by simp [words, Value.toKey?]
  obtain ⟨e, he, hread⟩ := List.exists_of_findSome?_eq_some h
  obtain ⟨rest, -, rfl⟩ := Option.map_eq_some_iff.1 hread
  exact hscalar e he

/-- numbers and words are neither lists nor objects -/
theorem toKey?_readScalar {cs : List Char} {r : Value × List Char} (h : readScalar cs = some r) :
    ∃ k, r.1.toKey? = some k := by
  unfold readScalar at h
  split at h
  · rename_i hword
    cases h
    exact toKey?_readWord hword
  · split at h
    · exact toKey?_readMagnitude h
    · exact toKey?_readMagnitude h

mutual

theorem unambiguous_readValue (fuel : Nat) (cs : List Char) {r : Value × List Char}
    (h : readValue fuel cs = some r) : r.1.Unambiguous := by
  cases fuel with
  | zero => cases h
  | succ fuel =>
    unfold readValue at h
    split at h
    case h_1 =>
      obtain ⟨_, -, rfl⟩ := Option.map_eq_some_iff.1 h
      exact .scalar rfl
    case h_2 =>
      split at h
      · cases h
        exact .list (by simp)
      · obtain ⟨items, hitems, rfl⟩ := Option.map_eq_some_iff.1 h
        exact .list (unambiguous_readItems fuel _ hitems)
    case h_3 =>
      split at h
      · cases h
        exact .object Table.distinct_nil (by simp)
      · obtain ⟨fields, hfields, rfl⟩ := Option.map_eq_some_iff.1 h
        exact unambiguous_ofList (unambiguous_readFields fuel _ hfields)
    case h_4 =>
      obtain ⟨k, hk⟩ := toKey?_readScalar h
      exact .scalar hk

theorem unambiguous_readItems (fuel : Nat) (cs : List Char) {r : List Value × List Char}
    (h : readItems fuel cs = some r) : ∀ v ∈ r.1, v.Unambiguous := by
  cases fuel with
  | zero => cases h
  | succ fuel =>
    unfold readItems at h
    split at h
    · cases h
    · rename_i hvalue
      have hfirst := unambiguous_readValue fuel _ hvalue
      split at h
      · cases h
        exact List.forall_mem_singleton.2 hfirst
      · obtain ⟨items, hitems, rfl⟩ := Option.map_eq_some_iff.1 h
        exact List.forall_mem_cons.2 ⟨hfirst, unambiguous_readItems fuel _ hitems⟩
      · cases h

theorem unambiguous_readFields (fuel : Nat) (cs : List Char) {r : List (Key × Value) × List Char}
    (h : readFields fuel cs = some r) : ∀ e ∈ r.1, e.2.Unambiguous := by
  cases fuel with
  | zero => cases h
  | succ fuel =>
    unfold readFields at h
    split at h
    · split at h
      · cases h
      · split at h
        · split at h
          · cases h
          · rename_i hvalue
            have hfirst := unambiguous_readValue fuel _ hvalue
            split at h
            · cases h
              exact List.forall_mem_singleton.2 hfirst
            · obtain ⟨fields, hfields, rfl⟩ := Option.map_eq_some_iff.1 h
              exact List.forall_mem_cons.2 ⟨hfirst, unambiguous_readFields fuel _ hfields⟩
            · cases h
        · cases h
    · cases h

end

/-- **Values that are read from JSON are unambiguous.** -/
theorem unambiguous_of_parse? {s : String} {v : Value} (h : parse? s = some v) : v.Unambiguous := by
  unfold parse? at h
  dsimp only at h
  split at h
  · rename_i hread
    split at h
    · cases h
      exact unambiguous_readValue _ _ hread
    · cases h
  · cases h

end Json

namespace Yaml

open Value

/-! ## YAML -/

theorem unambiguous_plainValue {s : String} {v : Value} (h : plainValue s = .ok v) : v.Unambiguous := by
  have hscalar : ∀ e ∈ words, ∃ k, e.2.toKey? = some k := by simp [words, Value.toKey?]
  unfold plainValue at h
  dsimp only at h
  split at h
  · rename_i hword
    cases h
    obtain ⟨e, he, rfl⟩ := Option.map_eq_some_iff.1 hword
    obtain ⟨k, hk⟩ := hscalar e (List.mem_of_find?_eq_some he)
    exact .scalar hk
  · split at h
    · cases h
    · split at h
      · cases h
        exact .scalar rfl
      · obtain ⟨n, -, rfl⟩ := map_eq_ok.1 h
        exact .scalar rfl
      · cases h
        exact .scalar rfl

namespace Node

theorem unambiguous_merged {v : Value} (hv : v.Unambiguous) {fields : List (Key × Value)}
    (h : merged v = .ok fields) : ∀ e ∈ fields, e.2.Unambiguous := by
  unfold merged at h
  split at h
  · cases h
    exact hv.fields.2
  · obtain ⟨parts, hparts, h⟩ := bind_eq_ok.1 h
    cases h
    intro e he
    obtain ⟨part, hpart, he⟩ := List.mem_flatten.1 he
    obtain ⟨item, hitem, hread⟩ := exists_of_mem_mapM hparts hpart
    have hitems := hv.items item (List.mem_reverse.1 hitem)
    split at hread
    · cases hread
      exact hitems.fields.2 e he
    · cases hread
  · cases h

mutual

theorem unambiguous_toValue (n : Node) {v : Value} (h : toValue n = .ok v) : v.Unambiguous := by
  cases n with
  | scalar text plain =>
    unfold toValue at h
    split at h
    · exact unambiguous_plainValue h
    · cases h
      exact .scalar rfl
  | tagged => cases h
  | sequence items =>
    obtain ⟨values, hvalues, h⟩ := bind_eq_ok.1 h
    cases h
    exact .list (unambiguous_itemValues items hvalues)
  | mapping fields =>
    obtain ⟨⟨before, own⟩, hfields, h⟩ := bind_eq_ok.1 h
    cases h
    apply unambiguous_ofList
    exact List.forall_mem_append.2 (unambiguous_fieldValues fields hfields)

theorem unambiguous_itemValues (items : List Node) {vs : List Value} (h : itemValues items = .ok vs) :
    ∀ v ∈ vs, v.Unambiguous := by
  cases items with
  | nil =>
    cases h
    simp
  | cons n rest =>
    obtain ⟨v, hv, h⟩ := bind_eq_ok.1 h
    obtain ⟨vs, hvs, h⟩ := bind_eq_ok.1 h
    cases h
    exact List.forall_mem_cons.2 ⟨unambiguous_toValue n hv, unambiguous_itemValues rest hvs⟩

theorem unambiguous_fieldValues (fields : List (Node × Node)) {r : List (Key × Value) × List (Key × Value)}
    (h : fieldValues fields = .ok r) : (∀ e ∈ r.1, e.2.Unambiguous) ∧ ∀ e ∈ r.2, e.2.Unambiguous := by
  cases fields with
  | nil =>
    cases h
    simp
  | cons field rest =>
    obtain ⟨key, value⟩ := field
    obtain ⟨v, hv, h⟩ := bind_eq_ok.1 h
    have hvalue := unambiguous_toValue value hv
    split at h
    · obtain ⟨found, hfound, h⟩ := bind_eq_ok.1 h
      obtain ⟨later, hlater, h⟩ := bind_eq_ok.1 h
      cases h
      obtain ⟨hbefore, hown⟩ := unambiguous_fieldValues rest hlater
      exact ⟨List.forall_mem_append.2 ⟨unambiguous_merged hvalue hfound, hbefore⟩, hown⟩
    · -- the key is read first, in one of two ways
      have hlater : ∃ k later, fieldValues rest = .ok later ∧ r = (later.1, (k, v) :: later.2) := by
        dsimp only at h
        split at h
        · obtain ⟨k, -, h⟩ := bind_eq_ok.1 h
          obtain ⟨later, hlater, h⟩ := bind_eq_ok.1 h
          cases h
          exact ⟨k, later, hlater, rfl⟩
        · obtain ⟨keyValue, -, h⟩ := bind_eq_ok.1 h
          obtain ⟨k, -, h⟩ := bind_eq_ok.1 h
          obtain ⟨later, hlater, h⟩ := bind_eq_ok.1 h
          cases h
          exact ⟨k, later, hlater, rfl⟩
      obtain ⟨k, later, hlater, rfl⟩ := hlater
      obtain ⟨hbefore, hown⟩ := unambiguous_fieldValues rest hlater
      exact ⟨hbefore, List.forall_mem_cons.2 ⟨hvalue, hown⟩⟩

end

end Node

/-- **Values that are read from YAML are unambiguous.** -/
theorem unambiguous_of_parse {s : String} {v : Value} (h : parse s = .ok v) : v.Unambiguous := by
  unfold parse at h
  dsimp only at h
  split at h
  · cases h
  · obtain ⟨node?, -, h⟩ := bind_eq_ok.1 h
    cases node? with
    | some node => exact Node.unambiguous_toValue node h
    | none =>
      cases h
      exact .scalar rfl

end Yaml

end WorkflowGraph
