import Dataflow.Graph.Listing
import Dataflow.Method

/-!
# The flow graph of a method

One node for every distinct statement, between an entry and an exit that are no statements. A
branch leads to its label and to the next position, a jump to its label, a return to the exit, all
else to the next position; past the last position is the exit.
-/

namespace Dataflow

/-- A node of the graph of a method. -/
inductive Node where
  | entry
  | exit
  | stmt (s : Stmt)
deriving DecidableEq, Repr

/-- What happens at a node; nothing at the entry and the exit. -/
def Node.instr : Node → Instr
  | .stmt s => s.instr
  | _ => .nop

/-- A jump to a label that the method does not have. -/
structure MissingLabel where
  method : String
  index : Int
  label : String
deriving DecidableEq, Repr

def MissingLabel.message (e : MissingLabel) : String :=
  e.method ++ ": statement " ++ toString e.index ++ " jumps to undefined label " ++
    Text.quoted e.label

namespace Method

/-- Nodes are written like their statements; the entry and the exit have index -1. -/
def labelling (m : Method) : Labelling Node where
  text
    | .stmt s => m.stmtText s
    | n => n.instr.text (-1)
  index
    | .stmt s => some (m.index s)
    | _ => some (-1)

/-- The node at a position. -/
def nodeAt (m : Method) (i : Nat) : Node :=
  match m.body[i]? with
  | some s => .stmt s
  | none => .exit

/-- The node that a jump leads to. -/
def target (m : Method) (s : Stmt) (label : String) : Except MissingLabel Node :=
  match m.label? label with
  | some t => .ok (.stmt t)
  | none => .error ⟨m.name, m.index s, label⟩

/-- The edges that leave position `i`, where `s` stands. -/
def edgesFrom (m : Method) (i : Nat) (s : Stmt) : Except MissingLabel (List (Edge Node)) :=
  match s.instr with
  | .branch _ l => do
      let t ← m.target s l
      return [⟨.stmt s, t, .ifTrue⟩, ⟨.stmt s, m.nodeAt (i + 1), .ifFalse⟩]
  | .goto l => do
      let t ← m.target s l
      return [⟨.stmt s, t, .goto⟩]
  | .ret _ => .ok [⟨.stmt s, .exit, .ret⟩]
  | _ => .ok [⟨.stmt s, m.nodeAt (i + 1), .fallThrough⟩]

/-- The edges that leave the positions from `i` on, where `ss` stand. -/
def edgesFromAll (m : Method) (i : Nat) : List Stmt → Except MissingLabel (List (Edge Node))
  | [] => .ok []
  | s :: ss => do
      let es ← m.edgesFrom i s
      let rest ← m.edgesFromAll (i + 1) ss
      return es ++ rest

/-- The nodes before any edge. -/
def isolated (m : Method) : Graph Node :=
  let start : Graph Node := .start m.name .entry .exit
  (m.body.foldl (fun g s => g.addNode (.stmt s)) start).addNode .exit

/-- The flow graph, or the first jump that leads nowhere. -/
def graph (m : Method) : Except MissingLabel (Graph Node) := do
  let es ← m.edgesFromAll 0 m.body
  return (⟨.entry, m.nodeAt 0, .entry⟩ :: es).foldl Graph.addEdge m.isolated

end Method

end Dataflow
