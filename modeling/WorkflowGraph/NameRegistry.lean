import WorkflowGraph.Text.Blank
/-
The registry of node names. It hands out each name once: a name that is taken gets the least number from two on that
makes it new.
-/
namespace WorkflowGraph

/-- the least number from `n` on whose candidate is not in use; among one more candidates than there are names in use one
is always free, so `fuel` is the number of names in use -/
def leastFree (candidate : Nat → String) (used : List String) (n : Nat) : Nat → Nat
  | 0 => n
  | fuel + 1 => if used.contains (candidate n) then leastFree candidate used (n + 1) fuel else n

/-- the names that are taken -/
structure NameRegistry where
  taken : List String

namespace NameRegistry

/-- a base name with a number -/
def numbered (base : String) (n : Nat) : String := base ++ " " ++ toString n

/-- the wanted name without surrounding blanks, or a general name when nothing is left of it -/
def baseName (wanted : String) : String :=
  let base := Text.strip (if wanted.isEmpty then "Node" else wanted)
  if base.isEmpty then "Node" else base

/-- the name that a wanted name gets -/
def freshName (r : NameRegistry) (wanted : String) : String :=
  let base := baseName wanted
  if r.taken.contains base then numbered base (leastFree (numbered base) r.taken 2 r.taken.length) else base

/-- the registry with a name taken -/
def take (r : NameRegistry) (name : String) : NameRegistry := ⟨name :: r.taken⟩

/-- a new name for a wanted one, and the registry with that name taken -/
def claim (r : NameRegistry) (wanted : String) : String × NameRegistry :=
  let name := r.freshName wanted
  (name, r.take name)

end NameRegistry

end WorkflowGraph
