import WorkflowGraph.Graph
import WorkflowGraph.Parameters.Defaults
import WorkflowGraph.Proofs.Connections.Canonical
import WorkflowGraph.Rows
/-
Nodes without the code that stands beside their parameters. Nothing that is read from a node, neither its role nor its
place nor its parameters, depends on such code.
-/
namespace WorkflowGraph

/-- a key is none of the fields of code -/
def offCode (k : Key) : Bool := !Node.codeFields.any fun name => k == .text name

/-- fields without code -/
def Fields.bare (fields : Fields) : Fields := fields.filter fun e => offCode e.1

namespace Node

/-- the node without code beside its parameters -/
def bare (n : Node) : Node := ⟨Fields.bare n.fields⟩

/-- the parameters have all the code that stands beside them -/
def Covered (n : Node) : Prop :=
  ∃ params, Table.get? (.text "parameters") n.fields = some (.object params) ∧
    ∀ name ∈ codeFields, Table.has (Key.text name) n.fields = true → Table.has (Key.text name) params = true

theorem offCode_of_not_mem {name : String} (h : name ∉ codeFields) {k : Key} (hk : (k == .text name) = true) :
    offCode k = true := by
  rw [Key.eq_text_of_beq hk, offCode, Bool.not_eq_true', List.any_eq_false]
  intro other hother heq
  rw [Key.text_beq_text, decide_eq_true_iff] at heq
  exact h (heq ▸ hother)

theorem get?_bare {name : String} (h : name ∉ codeFields) (fields : Fields) :
    Table.get? (.text name) (Fields.bare fields) = Table.get? (.text name) fields :=
  Table.get?_filter (fun _ hk => offCode_of_not_mem h hk) fields

/-! ## Fields -/

theorem get_bare (n : Node) {name : String} (h : name ∉ codeFields) : n.bare.get name = n.get name := by
  unfold get Value.field
  rw [bare, get?_bare h]

theorem textOf_bare (n : Node) {name : String} (h : name ∉ codeFields) : n.bare.textOf name = n.textOf name := by
  unfold textOf
  rw [bare, get?_bare h]

@[simp] theorem name_bare (n : Node) : n.bare.name = n.name := n.get_bare (by decide)

@[simp] theorem parameters_bare (n : Node) : n.bare.get "parameters" = n.get "parameters" := n.get_bare (by decide)

@[simp] theorem tag_bare (n : Node) : n.bare.tag = n.tag := by rw [tag, n.get_bare (by decide), tag]

/-! ## Roles -/

@[simp] theorem shortType_bare (n : Node) : n.bare.shortType = n.shortType := by rw [shortType, tag_bare, shortType]

@[simp] theorem isTrigger_bare (n : Node) : n.bare.isTrigger = n.isTrigger := by rw [isTrigger, tag_bare, isTrigger]

@[simp] theorem isSwitch_bare (n : Node) : n.bare.isSwitch = n.isSwitch := by rw [isSwitch, shortType_bare, isSwitch]

@[simp] theorem isConcluding_bare (n : Node) : n.bare.isConcluding = n.isConcluding := by
  have htype : n.bare.lowerType = n.lowerType := by rw [lowerType, n.textOf_bare (by decide), lowerType]
  have hname : n.bare.lowerName = n.lowerName := by rw [lowerName, n.textOf_bare (by decide), lowerName]
  rw [isConcluding, isTerminal, isBranchComplete, htype, hname]
  rfl

@[simp] theorem place_bare (n : Node) : n.bare.place = n.place := by rw [place, n.get_bare (by decide), place]

@[simp] theorem missing_bare (n : Node) : Parameters.missing n.bare = Parameters.missing n := by
  rw [Parameters.missing, parameters_bare, shortType_bare, Parameters.missing]

/-- code is nothing that a node of a graph may not have -/
@[simp] theorem carries_bare (n : Node) : Graph.carries n.bare = Graph.carries n := by
  have carried : ∀ name ∈ codeFields, (name != "self" && name != "node_for_adding") = true := by decide
  unfold Graph.carries bare Fields.bare
  rw [Bool.eq_iff_iff, List.all_eq_true, List.all_eq_true]
  constructor
  · rintro h ⟨k, v⟩ he
    by_cases hoff : offCode k = true
    · exact h (k, v) (List.mem_filter.2 ⟨he, hoff⟩)
    · rw [offCode, Bool.not_eq_true', Bool.not_eq_false, List.any_eq_true] at hoff
      obtain ⟨name, hname, hk⟩ := hoff
      obtain rfl := Key.eq_text_of_beq hk
      exact carried name hname
  · exact fun h e he => h e (List.mem_of_mem_filter he)

end Node

end WorkflowGraph
