import Dataflow.Graph
import Dataflow.Solution

/-!
# Dataflow problems

What an analysis says about facts: where they start, how they meet, and what a node does to them.
-/

namespace Dataflow

/-- The way facts travel. -/
inductive Direction where
  | forward
  | backward
deriving DecidableEq, Repr

/-- A dataflow problem over nodes `N` with facts `F`. -/
structure Problem (N F : Type) [DecidableEq N] where
  name : String
  direction : Direction
  /-- The fact where facts start. -/
  boundary : F
  /-- The fact everywhere else before the first visit. -/
  initial : F
  /-- Meets the first fact into the second. -/
  meet : F → F → F
  /-- The new fact after a node, from the fact before it and the old fact after it, and whether
  it counts as changed. -/
  transfer : N → F → F → F × Bool
  /-- A bound on how often the fact after one node changes between its first and its last visit,
  whatever facts a run starts from. -/
  height : Graph N → Solution N F → Nat

namespace Problem

variable {N F : Type} [DecidableEq N]

/-- The same problem with every visit taken for a change. Its runs end in a graph without cycles, where
a node is visited at most once for each walk to it, and each set of nodes is at most one walk. -/
def restless (p : Problem N F) : Problem N F :=
  { p with
    transfer := fun n before after => ((p.transfer n before after).1, true)
    height := fun g _ => Nat.pow 2 g.nodes.length }

end Problem

end Dataflow
