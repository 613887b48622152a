import WorkflowGraph.Proofs.Draft.NodeSet
import WorkflowGraph.Proofs.Parameters.Canonical
import WorkflowGraph.Proofs.Parameters.Shape
/-
Settled nodes, on which every rule finds its field in good order. A node that is kept is settled, and a settled node is
kept as it is.

- `parameters_again`: the parameters of a kept node.
- `settled_keepNode`, `keepNode_of_settled`: kept nodes are settled, and settled ones are kept.
-/
namespace WorkflowGraph

namespace Draft

/-! ## Parameters -/

theorem copyCode_cases (raw params : Fields) (key : String) :
    copyCode raw params key = params ∨ ∃ v, copyCode raw params key = Table.put (.text key) v params := by
  unfold copyCode
  split
  · split
    · exact Or.inl rfl
    · exact Or.inr ⟨_, rfl⟩
  · exact Or.inl rfl

/-- what writing code keeps holds with the code beside the parameters -/
theorem withCode_induction {P : Fields → Prop} (raw : Fields) {params : Fields} (h : P params)
    (put : ∀ params, ∀ key ∈ Node.codeFields, ∀ v, P params → P (Table.put (.text key) v params)) :
    P (withCode raw params) := by
  have run : ∀ (keys : List String) (params : Fields), (∀ key ∈ keys, key ∈ Node.codeFields) → P params →
      P (keys.foldl (copyCode raw) params) := by
    intro keys
    induction keys with
    | nil => exact fun _ _ h => h
    | cons key keys ih =>
      intro params hkeys h
      rw [List.forall_mem_cons] at hkeys
      apply ih _ hkeys.2
      rcases copyCode_cases raw params key with hsame | ⟨v, hput⟩
      · rw [hsame]
        exact h
      · rw [hput]
        exact put params key hkeys.1 v h
  exact run _ _ (fun _ hkey => hkey) h

theorem distinct_withCode {params : Fields} (hd : Table.Distinct params) (raw : Fields) :
    Table.Distinct (withCode raw params) :=
  withCode_induction (P := Table.Distinct) raw hd fun _ _ _ _ h => Table.distinct_put h

theorem shaped_withCode {short : String} {params : Fields} (h : Parameters.Shaped short params) (raw : Fields) :
    Parameters.Shaped short (withCode raw params) := by
  intro shape hshape
  apply withCode_induction (P := fun params => shape.Holds params) raw (h shape hshape)
  intro params key hkey v hholds
  exact hholds.put (Parameters.code_not_mem_names short shape hshape key hkey) v

/-- parameters that have all the code stay as they are -/
theorem withCode_of_covered {raw params : Fields}
    (h : ∀ key ∈ Node.codeFields, Table.has (Key.text key) raw = true → Table.has (Key.text key) params = true) :
    withCode raw params = params := by
  have run : ∀ (keys : List String), (∀ key ∈ keys, key ∈ Node.codeFields) → keys.foldl (copyCode raw) params = params := by
    intro keys
    induction keys with
    | nil => exact fun _ => rfl
    | cons key keys ih =>
      intro hkeys
      rw [List.forall_mem_cons] at hkeys
      have hsame : copyCode raw params key = params := by
        unfold copyCode
        split
        · rename_i v hv
          have hhas : Table.has (Key.text key) raw = true := by
            rw [Table.has_iff_get?, hv]
            rfl
          rw [if_pos (h key hkeys.1 hhas)]
        · rfl
      rw [List.foldl_cons, hsame]
      exact ih hkeys.2
  exact run _ fun _ hkey => hkey

/-- **The parameters of a kept node are its parameters when it is kept again.** -/
theorem parameters_again {type : String} {raw again : Fields}
    (hd : Table.Distinct ((Value.field "parameters" raw).object?.getD []))
    (hsame : Value.field "parameters" again = .object (parameters type raw).1)
    (hcode : ∀ key ∈ Node.codeFields,
      Table.has (Key.text key) again = true → Table.has (Key.text key) (parameters type raw).1 = true) :
    (parameters type again).1 = (parameters type raw).1 := by
  obtain ⟨given, hgiven⟩ : ∃ given, given = withCode raw
      (Parameters.fixShapes (Catalog.shortType type) ((Value.field "parameters" raw).object?.getD [])).params := ⟨_, rfl⟩
  have hfilled : (parameters type raw).1 = Parameters.fill (Catalog.shortType type) given := by
    rw [hgiven]
    rfl
  have hgivenDistinct : Table.Distinct given := by
    rw [hgiven]
    exact distinct_withCode (Parameters.distinct_fixShapes hd _) raw
  have hgivenShaped : Parameters.Shaped (Catalog.shortType type) given := by
    rw [hgiven]
    exact shaped_withCode (Parameters.shaped_fixShapes hd _) raw
  have hfix : Parameters.fixShapes (Catalog.shortType type) ((Value.field "parameters" again).object?.getD []) =
      ⟨(parameters type raw).1, []⟩ := by
    rw [hsame, hfilled]
    exact Parameters.fixShapes_of_shaped (hgivenShaped.fill hgivenDistinct)
  calc (parameters type again).1
      = Parameters.fill (Catalog.shortType type) (withCode again (parameters type raw).1) := by
        unfold parameters at hfix ⊢
        dsimp only at hfix ⊢
        rw [hfix]
    _ = Parameters.fill (Catalog.shortType type) (parameters type raw).1 := by rw [withCode_of_covered hcode]
    _ = (parameters type raw).1 := by
      rw [hfilled]
      exact Parameters.fill_fill hgivenDistinct _

/-! ## Settled nodes -/

/-- the fields of a node with a type, a name and an identifier on which every rule finds its field in good order -/
structure Settled (tag name id : String) (fields : Fields) : Prop where
  atType : Table.get? (.text "type") fields = some (.text tag)
  canonical : Parameters.IsCanonical tag
  atName : Table.get? (.text "name") fields = some (.text name)
  named : name ≠ "" ∧ Text.strip name = name
  atId : Table.get? (.text "id") fields = some (.text id)
  identified : id ≠ ""
  position : ∃ p, Table.get? (.text "position") fields = some p ∧ position? p = some p
  version : (Value.field "typeVersion" fields).isNumber = true
  atParameters : Table.get? (.text "parameters") fields = some (.object (parameters tag fields).1)
  webhook : Catalog.shortType tag = "webhook" → (Value.field "webhookId" fields).isFilled = true

theorem position?_position {v p : Value} (h : position? v = some p) : position? p = some p := by
  unfold position? at h
  split at h
  · split at h
    · rename_i x y hnumbers
      cases h
      simp [position?, hnumbers]
    · cases h
  · dsimp only at h
    split at h
    · rename_i hnumbers
      cases h
      simp [position?, hnumbers]
    · cases h
  · cases h

theorem position?_nodePosition (name : String) (index : Nat) (raw : Fields) :
    position? (nodePosition name index raw).1 = some (nodePosition name index raw).1 := by
  unfold nodePosition
  split
  · rename_i p hp
    exact position?_position hp
  · rfl

theorem uniqueText_ne_empty (n : Nat) : Identifiers.uniqueText n ≠ "" := by
  intro h
  have hlist := congrArg String.toList h
  unfold Identifiers.uniqueText at hlist
  dsimp only at hlist
  rw [String.intercalate_cons_cons] at hlist
  simp at hlist

/-- a webhook node has a webhook -/
theorem webhook_withWebhook {type : String} (htype : Catalog.shortType type = "webhook") (fields : Fields)
    (sources : Identifiers) : (Value.field "webhookId" (withWebhook type fields sources).1).isFilled = true := by
  unfold withWebhook
  split
  · dsimp only [Identifiers.webhookId]
    rw [Value.field, Table.get?_put, BEq.rfl, if_pos rfl, Option.getD_some, Value.isFilled]
    simpa using uniqueText_ne_empty sources.unique
  · rename_i h
    simpa [htype] using h

/-- a node that has its webhook keeps it -/
theorem withWebhook_of_filled {type : String} {fields : Fields}
    (h : Catalog.shortType type = "webhook" → (Value.field "webhookId" fields).isFilled = true) (sources : Identifiers) :
    withWebhook type fields sources = (fields, sources) := by
  unfold withWebhook
  rw [if_neg]
  rintro ⟨htype, hnone⟩
  rw [h htype] at hnone
  cases hnone

/-- **A kept node is settled**, when its type is canonical and its parameters are given once each. -/
theorem settled_keepNode {resolver : Resolver} {index : Nat} {raw : Fields} (used : Used)
    (htype : Parameters.IsCanonical (nodeType resolver index raw).1)
    (hd : Table.Distinct ((Value.field "parameters" raw).object?.getD [])) :
    Settled (nodeType resolver index raw).1 (keepNode resolver index used raw).1.name
      (keepNode resolver index used raw).1.id (keepNode resolver index used raw).1.fields := by
  have hname := name_keepNode resolver index used raw
  have hid := id_keepNode resolver index used raw
  have hparameters := get?_parameters_keepNode resolver index used raw
  constructor
  case atType => exact get?_type_keepNode resolver index used raw
  case canonical => exact htype
  case atName => exact get?_name_keepNode resolver index used raw
  case named =>
    rw [hname]
    exact ⟨used.names.freshName_ne_empty _, used.names.strip_freshName _⟩
  case atId => exact get?_id_keepNode resolver index used raw
  case identified =>
    rw [hid]
    exact (nodeId_new used.ids index raw).2
  case position =>
    have hposition := get?_position_keepNode resolver index used raw
    exact ⟨_, hposition, position?_nodePosition _ index raw⟩
  case version =>
    rw [Value.field, get?_keepNode resolver index used raw (by decide) (by decide), ← Value.field]
    exact typeVersion_placed raw _ _ _ _
  case atParameters =>
    have hsame : Value.field "parameters" (keepNode resolver index used raw).1.fields =
        .object (parameters (nodeType resolver index raw).1 raw).1 := by
      rw [Value.field, hparameters]
      rfl
    have hagain := parameters_again hd hsame (has_code_keepNode resolver index used raw)
    exact hparameters.trans (congrArg (fun params => some (Value.object params)) hagain.symm)
  case webhook =>
    intro hwebhook
    rw [fields_keepNode]
    exact webhook_withWebhook hwebhook _ _

/-- the fields of a settled node are in place -/
theorem placed_of_settled {tag name id : String} {fields : Fields} (h : Settled tag name id fields) {p : Value}
    (hp : Table.get? (.text "position") fields = some p) : placed fields tag name id p = fields := by
  unfold placed
  dsimp only
  rw [if_pos h.version]
  apply Table.putAll_of_get?
  intro e he
  simp only [List.mem_cons, List.not_mem_nil, or_false] at he
  rcases he with rfl | rfl | rfl | rfl
  · exact h.atType
  · exact h.atName
  · exact h.atId
  · exact hp

theorem nodeType_of_settled {tag name id : String} {fields : Fields} (h : Settled tag name id fields)
    (resolver : Resolver) (index : Nat) : (nodeType resolver index fields).1 = tag := by
  have hgiven : givenType? fields = some tag := by
    rw [givenType?, Value.field, h.atType, Option.getD_some]
    dsimp only
    rw [h.canonical.not_blank]
    rfl
  have hcanonical := Parameters.canonicalType_of_isCanonical h.canonical
  simp only [nodeType, hgiven, hcanonical]

/-- **A settled node is kept as it is**, as long as its name and its identifier are new. -/
theorem keepNode_of_settled {tag name id : String} {fields : Fields} (h : Settled tag name id fields)
    (resolver : Resolver) (index : Nat) {used : Used} (hname : name ∉ used.names.taken) (hid : id ∉ used.ids) :
    (keepNode resolver index used fields).1 = ⟨fields, name, id⟩ := by
  have htype := nodeType_of_settled h resolver index
  have hkeptName : (keepNode resolver index used fields).1.name = name := by
    have hwanted : wantedName fields tag = name := by
      have hfilled : Text.isBlankText name = false := by
        rw [← h.named.2]
        apply Text.isBlankText_strip
        rw [h.named.2]
        simpa using h.named.1
      rw [wantedName, Value.field, h.atName, Option.getD_some]
      dsimp only
      rw [hfilled, h.named.2]
      rfl
    rw [name_keepNode, htype, hwanted]
    exact NameRegistry.freshName_of_new h.named.1 h.named.2 hname
  have hkeptId : (keepNode resolver index used fields).1.id = id := by
    have hempty : id.isEmpty = false := by simpa using h.identified
    have hgiven : givenId? fields = some id := by
      rw [givenId?, Value.field, h.atId, Option.getD_some]
      dsimp only
      rw [hempty]
      rfl
    have hfree : used.ids.contains id = false := by simpa using hid
    rw [id_keepNode, nodeId, hgiven]
    dsimp only
    rw [hfree]
    rfl
  obtain ⟨p, hp, hposition⟩ := h.position
  have hkeptPosition : (nodePosition name index fields).1 = p := by
    rw [nodePosition, Value.field, hp, Option.getD_some, hposition]
  have hfields : (keepNode resolver index used fields).1.fields = fields := by
    rw [fields_keepNode, htype, hkeptName, hkeptId, hkeptPosition, placed_of_settled h hp,
      Table.put_of_get? h.atParameters, withWebhook_of_filled h.webhook]
  have hparts : ∀ k : Kept, k = ⟨k.fields, k.name, k.id⟩ := fun _ => rfl
  rw [hparts (keepNode resolver index used fields).1, hfields, hkeptName, hkeptId]

end Draft

end WorkflowGraph
