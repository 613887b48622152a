import WorkflowGraph.Proofs.Connections.Shape
import WorkflowGraph.Proofs.Connections.Reading
import WorkflowGraph.Proofs.NameRegistry
/-
Names of sources and port types in the shape of a document. They have to be lines of text, and when they are nothing is
wrong with connections that were written. A name without a line end is a line of text, and so is every name that a
registry hands out for a wanted name without one.

- `lined_of_load`: connections of the right shape have lines for names when they are loaded.
- `adjacency_violations_of_lined`: connections with lines for names are of the right shape when they are written.
-/
namespace WorkflowGraph

/-! ## Lines of text -/

/-- a text without a line end -/
def OneLine (s : String) : Prop := '\n' ∉ s.toList

instance (s : String) : Decidable (OneLine s) := inferInstanceAs (Decidable (¬ _))

theorem oneLine_append {s t : String} (hs : OneLine s) (ht : OneLine t) : OneLine (s ++ t) := by
  rw [OneLine, String.toList_append, List.mem_append, not_or]
  exact ⟨hs, ht⟩

theorem oneLine_strip {s : String} (h : OneLine s) : OneLine (Text.strip s) := by
  intro hmem
  rw [Text.strip, String.toList_ofList] at hmem
  exact h ((List.dropWhile_suffix _).subset ((Text.trimRight_prefix _ _).subset hmem))

theorem oneLine_toString (n : Nat) : OneLine (toString n) := by
  intro hmem
  rw [Nat.toString_eq_repr, Nat.toList_repr] at hmem
  exact absurd (Nat.isDigit_of_mem_toDigits (by decide) (by decide) hmem) (by decide)

/-- a text without a line end, if there is something in it, is a line of text -/
theorem isLine_of_oneLine {s : String} (hne : s ≠ "") (h : OneLine s) : isLine s = true := by
  have hlast : s.toList.getLast? ≠ some '\n' := fun hlast => h (List.mem_of_getLast? hlast)
  rw [isLine, dropFinalLineEnd, if_neg hlast, Bool.and_eq_true, Bool.not_eq_true', List.all_eq_true]
  refine ⟨by simpa using hne, fun c hc => ?_⟩
  rw [bne_iff_ne]
  rintro rfl
  exact h hc

/-- a registry hands out names without a line end for such names -/
theorem NameRegistry.oneLine_freshName (r : NameRegistry) {wanted : String} (h : OneLine wanted) :
    OneLine (r.freshName wanted) := by
  have hnode : OneLine "Node" := by decide +kernel
  have hwanted : OneLine (if wanted.isEmpty then "Node" else wanted) := by
    by_cases hempty : wanted.isEmpty = true
    · rwa [if_pos hempty]
    · rwa [if_neg hempty]
  have hbase : OneLine (baseName wanted) := by
    unfold baseName
    dsimp only
    by_cases hempty : (Text.strip (if wanted.isEmpty then "Node" else wanted)).isEmpty = true
    · rwa [if_pos hempty]
    · rw [if_neg hempty]
      exact oneLine_strip hwanted
  unfold freshName
  dsimp only
  by_cases htaken : r.taken.contains (baseName wanted) = true
  · rw [if_pos htaken, numbered]
    exact oneLine_append (oneLine_append hbase (by decide +kernel)) (oneLine_toString _)
  · rwa [if_neg htaken]

/-! ## Objects with lines for names -/

/-- the fields of an object of the right shape have lines for names, as far as these are texts -/
theorem named_shape {shape : Schema} {path : List PathStep} {v : Value}
    (h : (Schema.rules [.type [.object], .named shape, .onlyNamed]).violations path v = []) :
    ∃ fields, v = .object fields ∧ ∀ s w, (Key.text s, w) ∈ fields →
      isLine s = true ∧ ∃ path, shape.violations path w = [] := by
  have rules := violations_eq_nil_iff.1 h
  obtain ⟨fields, rfl⟩ := admits_object (admits_of_messages_type (rules _ (by simp)).1)
  refine ⟨fields, rfl, fun s w hmem => ?_⟩
  have hstray : strayNames fields = [] := by
    have honly := (rules .onlyNamed (by simp)).1
    simpa [SchemaRule.messages] using honly
  have hline : isLine s = true := by
    by_contra hnot
    have hnone := List.filterMap_eq_nil_iff.1 hstray _ hmem
    simp [hnot] at hnone
  have hinner := (rules (.named shape) (by simp)).2
  rw [SchemaRule.inner, List.flatMap_eq_nil_iff] at hinner
  have hnamed : (s, w) ∈ namedFields fields := List.mem_filterMap.2 ⟨_, hmem, by simp [hline]⟩
  exact ⟨hline, _, hinner _ hnamed⟩

/-- an object whose fields have lines for names and values of a shape -/
theorem named_violations {shape : Schema} {fields : Fields}
    (h : ∀ e ∈ fields, (∃ s, e.1 = .text s ∧ isLine s = true) ∧ ∀ path, shape.violations path e.2 = [])
    (path : List PathStep) :
    (Schema.rules [.type [.object], .named shape, .onlyNamed]).violations path (.object fields) = [] := by
  refine violations_eq_nil_iff.2 fun rule hrule => ?_
  simp only [List.mem_cons, List.not_mem_nil, or_false] at hrule
  rcases hrule with rfl | rfl | rfl
  · exact ⟨rfl, rfl⟩
  · refine ⟨rfl, ?_⟩
    rw [SchemaRule.inner, List.flatMap_eq_nil_iff]
    intro x hx
    obtain ⟨e, he, hex⟩ := List.mem_filterMap.1 hx
    obtain ⟨⟨s, hs, hline⟩, hshape⟩ := h e he
    simp only [hs, hline, if_true, Option.some.injEq] at hex
    rw [← hex]
    exact hshape _
  · have hstray : strayNames fields = [] := by
      refine List.filterMap_eq_nil_iff.2 fun e he => ?_
      obtain ⟨⟨s, hs, hline⟩, -⟩ := h e he
      simp [hs, hline]
    exact ⟨by simp [SchemaRule.messages, hstray], rfl⟩

namespace Connections

/-! ## Connections with lines for names -/

/-- sources and port types are lines of text -/
def Lined (c : Connections) : Prop :=
  ∀ x ∈ c.table, (∃ s, x.1 = .text s ∧ isLine s = true) ∧ ∀ y ∈ x.2, isLine y.1 = true

theorem Lined.modifyPorts {c : Connections} (h : Lined c) {s portType : String} (hs : isLine s = true)
    (ht : isLine portType = true) (f : List Port → List Port) : Lined (c.modifyPorts (.text s) portType f) := by
  have inner : ∀ t : PortTable, (∀ y ∈ t, isLine y.1 = true) →
      ∀ y ∈ Table.modify portType (fun ports => f (ports.getD [])) t, isLine y.1 = true := by
    intro t hall
    exact Table.forall_modify (P := fun pt (_ : List Port) => isLine pt = true) hall ht fun _ _ _ hpt => hpt
  exact Table.forall_modify (P := fun (k : Key) (t : PortTable) =>
    (∃ s, k = .text s ∧ isLine s = true) ∧ ∀ y ∈ t, isLine y.1 = true) h ⟨⟨s, rfl, hs⟩, inner [] (by simp)⟩
    fun _ t _ hx => ⟨hx.1, inner t hx.2⟩

theorem Lined.connect {c : Connections} (h : Lined c) {s : String} (hs : isLine s = true) (target : String)
    (index : Nat) : Lined (c.connect (.text s) target index) :=
  h.modifyPorts hs (by decide +kernel) _

theorem Lined.mapPorts {c : Connections} (h : Lined c) (f : Port → Port) : Lined (c.mapPorts f) := by
  intro x hx
  obtain ⟨a, ha, rfl⟩ := List.mem_map.1 hx
  exact ⟨(h a ha).1, List.forall_mem_map.2 (h a ha).2⟩

/-- nothing is wrong with connections that were written with lines for names -/
theorem adjacency_violations_of_lined {c : Connections} (h : Lined c) (hr : EachPort Readable c)
    (path : List PathStep) : Schema.adjacency.violations path c.toValue = [] := by
  refine named_violations (fun e he => ?_) path
  obtain ⟨x, hx, rfl⟩ := List.mem_map.1 he
  refine ⟨(h x hx).1, named_violations fun e he => ?_⟩
  obtain ⟨y, hy, rfl⟩ := List.mem_map.1 he
  exact ⟨⟨y.1, rfl, (h x hx).2 y hy⟩, portList_violations (hr x hx y hy)⟩

/-! ## Loading -/

/-- the port types that are read are those that were written -/
theorem lines_of_readPortTable {entries : List (Key × Value)} {done t : PortTable}
    (h : readPortTable done entries = .ok t) (hd : ∀ y ∈ done, isLine y.1 = true)
    (he : ∀ e ∈ entries, ∃ s, e.1 = .text s ∧ isLine s = true) : ∀ y ∈ t, isLine y.1 = true := by
  induction entries generalizing done with
  | nil =>
    cases h
    exact hd
  | cons e entries ih =>
    obtain ⟨ports, -, h⟩ := bind_eq_ok.1 h
    obtain ⟨⟨s, hs, hline⟩, hrest⟩ := List.forall_mem_cons.1 he
    rw [hs] at h
    refine ih h (Table.forall_put (P := fun pt (_ : List Port) => isLine pt = true) hd hline fun pt hpt => ?_) hrest
    rwa [eq_of_beq hpt]

/-- so are the sources -/
theorem lined_of_readSources {entries : List (Key × Value)} {done t : Table Key PortTable}
    (h : readSources done entries = .ok t) (hd : Lined ⟨done⟩)
    (he : ∀ e ∈ entries, (∃ s, e.1 = .text s ∧ isLine s = true) ∧
      ∃ byType, e.2 = .object byType ∧ ∀ f ∈ byType, ∃ s, f.1 = .text s ∧ isLine s = true) : Lined ⟨t⟩ := by
  induction entries generalizing done with
  | nil =>
    cases h
    exact hd
  | cons e entries ih =>
    obtain ⟨source, v⟩ := e
    obtain ⟨⟨⟨s, rfl, hline⟩, byType, rfl, htypes⟩, hrest⟩ := List.forall_mem_cons.1 he
    obtain ⟨ports, hports, h⟩ := bind_eq_ok.1 h
    have hlines := lines_of_readPortTable hports (by simp) htypes
    refine ih h (Table.forall_put (P := fun (k : Key) (t : PortTable) =>
      (∃ s, k = .text s ∧ isLine s = true) ∧ ∀ y ∈ t, isLine y.1 = true) hd ⟨⟨s, rfl, hline⟩, hlines⟩ ?_) hrest
    exact fun k hk => ⟨⟨s, Key.eq_text_of_beq hk, hline⟩, hlines⟩

theorem exists_text_of_isText {k : Key} (h : (Value.ofKey k).isText = true) : ∃ s, k = .text s := by
  cases k with
  | text s => exact ⟨s, rfl⟩
  | _ => cases h

/-- **Connections of the right shape have lines for names** when they are loaded. -/
theorem lined_of_load {document : Fields} {c : Connections} {path : List PathStep}
    (hkeys : Schema.keysAreTexts document = true)
    (hshape : Schema.adjacency.violations path (Value.field "connections" document) = [])
    (h : load (Value.field "connections" document) = .ok c) : Lined c := by
  obtain ⟨sources, hsources, hfields⟩ := named_shape hshape
  unfold Schema.keysAreTexts at hkeys
  rw [hsources] at h hkeys
  simp only [Bool.and_eq_true, List.all_eq_true] at hkeys
  obtain ⟨n, hn, rfl⟩ := map_eq_ok.1 h
  obtain ⟨t, ht, rfl⟩ := map_eq_ok.1 hn
  have hlined : Lined ⟨t⟩ := by
    refine lined_of_readSources ht (by simp [Lined]) fun e he => ?_
    obtain ⟨s, hs⟩ := exists_text_of_isText (hkeys.1 e he)
    obtain ⟨hline, _, htable⟩ := hfields s e.2 (hs ▸ he)
    obtain ⟨byType, hbyType, htypes⟩ := named_shape htable
    refine ⟨⟨s, hs, hline⟩, byType, hbyType, fun f hf => ?_⟩
    have htexts := hkeys.2 e he
    rw [hbyType] at htexts
    obtain ⟨pt, hpt⟩ := exists_text_of_isText (List.all_eq_true.1 htexts f hf)
    exact ⟨pt, hpt, (htypes pt f.2 (hpt ▸ hf)).1⟩
  rw [rebuild_eq (normalize_form hn).1]
  have hopened : Lined (opened ⟨t⟩) := fun x hx => hlined x (List.mem_of_mem_filter hx)
  exact hopened.mapPorts once

end Connections

end WorkflowGraph
