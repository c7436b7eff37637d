import Dataflow.OrderedMap

/-!
# Solutions

The fact before and the fact after every node, and how they were reached.

The tables hold facts as values. They stand for tables of objects that change in place, with an
object of its own in every slot: the facts of different slots are never one object, and everything
that makes or changes a table keeps it so. With one object in two slots a change of one fact would
change the other.
-/

namespace Dataflow

/-- Facts by node. A node may have only one of its two facts. -/
structure Solution (N F : Type) [DecidableEq N] where
  ins : OrderedMap N F
  outs : OrderedMap N F
  /-- The visits of the last run that ended. -/
  iterations : Nat
  converged : Bool

namespace Solution

variable {N F : Type} [DecidableEq N]

/-- No facts. -/
def empty : Solution N F := ⟨.empty, .empty, 0, false⟩

instance : EmptyCollection (Solution N F) := ⟨empty⟩

def setIn (s : Solution N F) (n : N) (f : F) : Solution N F := { s with ins := s.ins.insert n f }

def setOut (s : Solution N F) (n : N) (f : F) : Solution N F := { s with outs := s.outs.insert n f }

/-- The nodes with a fact after them, and both facts. -/
def items (s : Solution N F) : List (N × Option F × F) :=
  s.outs.toList.map fun p => (p.1, s.ins.get? p.1, p.2)

end Solution

end Dataflow
