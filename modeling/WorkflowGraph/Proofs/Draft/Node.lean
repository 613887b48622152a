import WorkflowGraph.Draft.Node
import WorkflowGraph.Proofs.NameRegistry
import WorkflowGraph.Proofs.Node
/-
The nodes that a draft keeps. A kept node has the name that the registry hands out for it and an identifier of its own,
its parameters have everything that its type requires and all the code that the draft gives beside them, and what no
rule is about is as the draft gives it.

- `kept_name`, `nodeId_new`, `has_required`, `kept_covered`: the name, the identifier and the parameters.
- `get?_keepNode_of_ne`: all other fields.
-/
namespace WorkflowGraph

namespace Draft

/-! ## Code -/

theorem has_copyCode (raw params : Fields) (key name : String) :
    Table.has (Key.text name) (copyCode raw params key) = true ↔
      Table.has (Key.text name) params = true ∨ name = key ∧ Table.has (Key.text name) raw = true := by
  unfold copyCode
  cases hraw : Table.get? (Key.text key) raw with
  | none =>
    refine ⟨Or.inl, ?_⟩
    rintro (hparams | ⟨rfl, hhas⟩)
    · exact hparams
    · rw [Table.has_iff_get?, hraw] at hhas
      cases hhas
  | some v =>
    have hhas : Table.has (Key.text key) raw = true := by
      rw [Table.has_iff_get?, hraw]
      rfl
    by_cases hkey : Table.has (Key.text key) params = true
    · simp only [hkey, if_true]
      refine ⟨Or.inl, ?_⟩
      rintro (hparams | ⟨rfl, -⟩)
      · exact hparams
      · exact hkey
    · simp only [hkey, Bool.false_eq_true, if_false]
      rw [Table.has_put, Bool.or_eq_true, Key.text_beq_text, decide_eq_true_iff]
      constructor
      · rintro (rfl | hparams)
        · exact Or.inr ⟨rfl, hhas⟩
        · exact Or.inl hparams
      · rintro (hparams | ⟨rfl, -⟩)
        · exact Or.inr hparams
        · exact Or.inl rfl

theorem has_foldl_copyCode (names : List String) (raw params : Fields) (name : String) :
    Table.has (Key.text name) (names.foldl (copyCode raw) params) = true ↔
      Table.has (Key.text name) params = true ∨ name ∈ names ∧ Table.has (Key.text name) raw = true := by
  induction names generalizing params with
  | nil => simp
  | cons key names ih => rw [List.foldl_cons, ih, has_copyCode, List.mem_cons, or_assoc, ← or_and_right]

/-- the parameters of a node have all the code that the draft gives beside them -/
theorem has_parameters {type name : String} {raw : Fields} (hname : name ∈ Node.codeFields)
    (h : Table.has (Key.text name) raw = true) : Table.has (Key.text name) (parameters type raw).1 = true := by
  unfold parameters
  dsimp only
  rw [Parameters.fill, Table.has_putAll, Bool.or_eq_true]
  exact Or.inr ((has_foldl_copyCode _ _ _ _).2 (Or.inr ⟨hname, h⟩))

/-- the parameters of a node have everything that its type requires -/
theorem has_required {type : String} {key : Key} (h : Table.has key (Parameters.defaults (Catalog.shortType type)) = true)
    (raw : Fields) : Table.has key (parameters type raw).1 = true := by
  unfold parameters
  dsimp only
  rw [Parameters.fill, Table.has_putAll, h, Bool.true_or]

/-! ## Identifiers -/

theorem generalId_injective : Function.Injective generalId := by
  intro a b h
  exact toString_injective ((String.append_right_inj _).1 h)

/-- an assigned identifier is not in use -/
theorem assignedId_not_mem (used : List String) (index : Nat) : assignedId used index ∉ used := by
  unfold assignedId
  dsimp only
  split
  · exact leastFree_not_mem generalId_injective (index + 2)
  · rename_i h
    rwa [List.contains_iff_mem] at h

theorem assignedId_ne_empty (used : List String) (index : Nat) : assignedId used index ≠ "" := by
  unfold assignedId
  dsimp only
  split
  · intro h
    have hlist := congrArg String.toList h
    simp [generalId] at hlist
  · exact Text.toString_ne_empty _

theorem givenId?_ne_empty {raw : Fields} {id : String} (h : givenId? raw = some id) : id ≠ "" := by
  unfold givenId? at h
  split at h
  · split at h
    · cases h
    · rename_i hne
      cases h
      simpa using hne
  · rename_i i _
    cases h
    cases i with
    | ofNat n => exact Text.toString_ne_empty n
    | negSucc n =>
      intro hempty
      have hlist := congrArg String.toList hempty
      simp [toString, Int.repr] at hlist
  · cases h

/-- the identifier of a node is not in use, and it is not empty -/
theorem nodeId_new (used : List String) (index : Nat) (raw : Fields) :
    (nodeId used index raw).1 ∉ used ∧ (nodeId used index raw).1 ≠ "" := by
  have hassigned := And.intro (assignedId_not_mem used index) (assignedId_ne_empty used index)
  unfold nodeId
  dsimp only
  split
  · rename_i id hid
    split
    · exact hassigned
    · rename_i hnew
      rw [List.contains_iff_mem] at hnew
      exact ⟨hnew, givenId?_ne_empty hid⟩
  · exact hassigned

/-! ## Fields -/

/-- the fields that keeping a node may change -/
def mendedFields : List String := ["type", "name", "id", "position", "typeVersion", "parameters", "webhookId"]

/-- the fields that are found for every node -/
def foundFields (type name id : String) (position : Value) : Fields := [
  (.text "type", .text type), (.text "name", .text name), (.text "id", .text id), (.text "position", position)]

theorem ne_of_mem_foundFields {type name id : String} {position : Value} {e : Key × Value}
    (h : e ∈ foundFields type name id position) {other : String}
    (hother : other ∉ ["type", "name", "id", "position"]) : e.1 ≠ .text other := by
  simp only [List.mem_cons, List.not_mem_nil, or_false, not_or] at hother
  simp only [foundFields, List.mem_cons, List.not_mem_nil, or_false] at h
  obtain ⟨htype, hname, hid, hposition⟩ := hother
  rcases h with rfl | rfl | rfl | rfl
  · simpa using Ne.symm htype
  · simpa using Ne.symm hname
  · simpa using Ne.symm hid
  · simpa using Ne.symm hposition

theorem text_beq_of_ne {name : String} {key : Key} (h : key ≠ .text name) : (Key.text name == key) = false := by
  rw [← Bool.not_eq_true]
  intro heq
  exact h (Key.eq_text_of_beq (BEq.symm heq))

theorem get?_withWebhook {key : Key} (h : key ≠ .text "webhookId") (type : String) (fields : Fields)
    (sources : Identifiers) : Table.get? key (withWebhook type fields sources).1 = Table.get? key fields := by
  unfold withWebhook
  split
  · dsimp only
    rw [Table.get?_put, text_beq_of_ne h]
    rfl
  · rfl

/-- a node has the fields that are found for it -/
theorem get?_placed {type name id : String} {position : Value} {e : Key × Value}
    (h : e ∈ foundFields type name id position) (raw : Fields) :
    Table.get? e.1 (placed raw type name id position) = some e.2 := by
  have hfields : Table.get? e.1 (Table.putAll raw (foundFields type name id position)) = some e.2 := by
    simp only [foundFields, List.mem_cons, List.not_mem_nil, or_false] at h
    rcases h with rfl | rfl | rfl | rfl
    all_goals simp [foundFields, Table.putAll, Table.get?_put, Key.text_beq_text]
  unfold placed
  dsimp only
  split
  · exact hfields
  · rw [Table.get?_put, text_beq_of_ne (ne_of_mem_foundFields h (by decide))]
    exact hfields

/-- a field that no rule is about is as the draft gives it -/
theorem get?_placed_of_ne {key : Key} (h : ∀ name ∈ mendedFields, key ≠ .text name) (raw : Fields)
    (type name id : String) (position : Value) :
    Table.get? key (placed raw type name id position) = Table.get? key raw := by
  simp only [mendedFields, List.forall_mem_cons] at h
  obtain ⟨htype, hname, hid, hposition, hversion, -⟩ := h
  have hfields : Table.get? key (Table.putAll raw (foundFields type name id position)) = Table.get? key raw := by
    simp [foundFields, Table.putAll, Table.get?_put, text_beq_of_ne htype, text_beq_of_ne hname, text_beq_of_ne hid,
      text_beq_of_ne hposition]
  unfold placed
  dsimp only
  split
  · exact hfields
  · rw [Table.get?_put, text_beq_of_ne hversion]
    exact hfields

/-- the version of a node is a number -/
theorem typeVersion_placed (raw : Fields) (type name id : String) (position : Value) :
    (Value.field "typeVersion" (placed raw type name id position)).isNumber = true := by
  unfold placed
  dsimp only
  split
  · rename_i h
    have hget : Table.get? (.text "typeVersion") (Table.putAll raw (foundFields type name id position)) =
        Table.get? (.text "typeVersion") raw := by
      simp [foundFields, Table.putAll, Table.get?_put, Key.text_beq_text]
    show (Value.field "typeVersion" (Table.putAll raw (foundFields type name id position))).isNumber = true
    rw [Value.field, hget]
    exact h
  · rw [Value.field, Table.get?_put, BEq.rfl]
    rfl

/-! ## The node -/

section

variable (resolver : Resolver) (index : Nat) (used : Used) (raw : Fields)

theorem name_keepNode :
    (keepNode resolver index used raw).1.name =
      used.names.freshName (wantedName raw (nodeType resolver index raw).1) := by
  unfold keepNode
  rfl

theorem names_keepNode :
    (keepNode resolver index used raw).2.1.names = used.names.take (keepNode resolver index used raw).1.name := by
  unfold keepNode
  rfl

theorem id_keepNode : (keepNode resolver index used raw).1.id = (nodeId used.ids index raw).1 := by
  unfold keepNode
  rfl

theorem ids_keepNode :
    (keepNode resolver index used raw).2.1.ids = (keepNode resolver index used raw).1.id :: used.ids := by
  unfold keepNode
  rfl

theorem fields_keepNode :
    (keepNode resolver index used raw).1.fields =
      (withWebhook (nodeType resolver index raw).1
        (Table.put (.text "parameters") (.object (parameters (nodeType resolver index raw).1 raw).1)
          (placed raw (nodeType resolver index raw).1 (keepNode resolver index used raw).1.name
            (keepNode resolver index used raw).1.id
            (nodePosition (keepNode resolver index used raw).1.name index raw).1))
        used.sources).1 := by
  unfold keepNode
  rfl

/-- a field of a kept node that is neither the webhook nor the parameters -/
theorem get?_keepNode {key : Key} (hwebhook : key ≠ .text "webhookId") (hparameters : key ≠ .text "parameters") :
    Table.get? key (keepNode resolver index used raw).1.fields =
      Table.get? key (placed raw (nodeType resolver index raw).1 (keepNode resolver index used raw).1.name
        (keepNode resolver index used raw).1.id
        (nodePosition (keepNode resolver index used raw).1.name index raw).1) := by
  rw [fields_keepNode, get?_withWebhook hwebhook, Table.get?_put, text_beq_of_ne hparameters]
  rfl

/-- a kept node has the type, the name, the identifier and the position that were found for it -/
theorem get?_found_keepNode {e : Key × Value}
    (h : e ∈ foundFields (nodeType resolver index raw).1 (keepNode resolver index used raw).1.name
      (keepNode resolver index used raw).1.id
      (nodePosition (keepNode resolver index used raw).1.name index raw).1) :
    Table.get? e.1 (keepNode resolver index used raw).1.fields = some e.2 := by
  rw [get?_keepNode resolver index used raw (ne_of_mem_foundFields h (by decide))
    (ne_of_mem_foundFields h (by decide))]
  exact get?_placed h raw

theorem get?_type_keepNode :
    Table.get? (.text "type") (keepNode resolver index used raw).1.fields =
      some (.text (nodeType resolver index raw).1) := by
  have h := get?_found_keepNode resolver index used raw List.mem_cons_self
  exact h

theorem get?_name_keepNode :
    Table.get? (.text "name") (keepNode resolver index used raw).1.fields =
      some (.text (keepNode resolver index used raw).1.name) := by
  have h := get?_found_keepNode resolver index used raw (List.mem_cons_of_mem _ List.mem_cons_self)
  exact h

theorem get?_id_keepNode :
    Table.get? (.text "id") (keepNode resolver index used raw).1.fields =
      some (.text (keepNode resolver index used raw).1.id) := by
  have h := get?_found_keepNode resolver index used raw
    (List.mem_cons_of_mem _ (List.mem_cons_of_mem _ List.mem_cons_self))
  exact h

theorem get?_position_keepNode :
    Table.get? (.text "position") (keepNode resolver index used raw).1.fields =
      some (nodePosition (keepNode resolver index used raw).1.name index raw).1 := by
  have h := get?_found_keepNode resolver index used raw
    (List.mem_cons_of_mem _ (List.mem_cons_of_mem _ (List.mem_cons_of_mem _ List.mem_cons_self)))
  exact h

theorem get?_parameters_keepNode :
    Table.get? (.text "parameters") (keepNode resolver index used raw).1.fields =
      some (.object (parameters (nodeType resolver index raw).1 raw).1) := by
  rw [fields_keepNode, get?_withWebhook (by decide), Table.get?_put, BEq.rfl]
  rfl

/-- a field that no rule is about is as the draft gives it -/
theorem get?_keepNode_of_ne {key : Key} (h : ∀ name ∈ mendedFields, key ≠ .text name) :
    Table.get? key (keepNode resolver index used raw).1.fields = Table.get? key raw := by
  rw [get?_keepNode resolver index used raw (h _ (by decide)) (h _ (by decide)), get?_placed_of_ne h]

/-- a kept node has the name that was handed out for it -/
theorem kept_name :
    (⟨(keepNode resolver index used raw).1.fields⟩ : Node).name = .text (keepNode resolver index used raw).1.name := by
  rw [Node.name, Node.get, Value.field, get?_name_keepNode]
  rfl

/-- the parameters of a kept node have all the code beside them -/
theorem has_code_keepNode : ∀ name ∈ Node.codeFields,
    Table.has (Key.text name) (keepNode resolver index used raw).1.fields = true →
      Table.has (Key.text name) (parameters (nodeType resolver index raw).1 raw).1 = true := by
  have hcode : ∀ name ∈ Node.codeFields, name ∉ mendedFields := by decide
  intro name hname hhas
  have hne : ∀ other ∈ mendedFields, Key.text name ≠ .text other := by
    rintro other hother heq
    cases heq
    exact hcode name hname hother
  rw [Table.has_iff_get?, get?_keepNode_of_ne resolver index used raw hne, ← Table.has_iff_get?] at hhas
  exact has_parameters hname hhas

theorem kept_covered : (⟨(keepNode resolver index used raw).1.fields⟩ : Node).Covered := by
  have hparameters := get?_parameters_keepNode resolver index used raw
  have hcode := has_code_keepNode resolver index used raw
  generalize keepNode resolver index used raw = result at hparameters hcode ⊢
  exact ⟨_, hparameters, hcode⟩

end

end Draft

end WorkflowGraph
