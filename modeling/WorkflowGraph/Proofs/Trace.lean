import WorkflowGraph.Connections.Normal
/-
Rules of decisions. Every stage decides under rules of its own, so a trace can be told apart by its rules: what is
recorded under a rule comes from the stages that have it.

- `Under`: the rules under which a trace was recorded.
- `Connections.under_normalizeEvents`: the rules for reading connections.
-/
namespace WorkflowGraph

namespace Trace

/-- every decision was made under one of some rules -/
def Under (rules : List String) (t : Trace) : Prop := ∀ e ∈ t, e.rule ∈ rules

variable {rules rules' : List String} {t t' : Trace}

theorem under_nil (rules : List String) : Under rules [] := by simp [Under]

theorem under_event {stage rule : String} {detail : List (String × Value)} (h : rule ∈ rules) :
    Under rules [Event.of stage rule detail] := List.forall_mem_singleton.2 h

theorem Under.append (h : t.Under rules) (h' : t'.Under rules) : Trace.Under rules (t ++ t') :=
  List.forall_mem_append.2 ⟨h, h'⟩

theorem Under.mono (h : t.Under rules) (hsub : rules ⊆ rules') : t.Under rules' := fun e he => hsub (h e he)

theorem under_flatMap {α : Type} {l : List α} {f : α → Trace} (h : ∀ a ∈ l, (f a).Under rules) :
    Trace.Under rules (l.flatMap f) := by
  intro e he
  obtain ⟨a, ha, he⟩ := List.mem_flatMap.1 he
  exact h a ha e he

end Trace

namespace Connections

/-- the rules for reading connections -/
def readingRules : List String := [
  "single-descriptor", "wrapped-flat-port", "dropped-port-value", "missing-port-type", "dropped-source",
  "dropped-non-object"]

theorem under_portEvents (source : String) (v : Value) : (portEvents source v).Under readingRules := by
  cases v with
  | list items =>
    rw [portEvents]
    split
    · exact Trace.under_event (by decide)
    · exact Trace.under_nil _
  | _ => exact Trace.under_event (by decide)

theorem under_sourceEvents (source : String) (v : Value) : (sourceEvents source v).Under readingRules := by
  have hmissing : Trace.Under readingRules
      (if v.isList then [decided "missing-port-type" [("source", source)]] else []) := by
    split
    · exact Trace.under_event (by decide)
    · exact Trace.under_nil _
  unfold sourceEvents
  dsimp only
  split
  · exact hmissing.append (Trace.under_flatMap fun _ _ => under_portEvents _ _)
  · exact Trace.under_event (by decide)

/-- what is decided in reading connections is decided under the rules for it -/
theorem under_normalizeEvents (v : Value) : (normalizeEvents v).Under readingRules := by
  cases v with
  | object fields => exact Trace.under_flatMap fun _ _ => under_sourceEvents _ _
  | null => exact Trace.under_nil _
  | _ => exact Trace.under_event (by decide)

end Connections

end WorkflowGraph
