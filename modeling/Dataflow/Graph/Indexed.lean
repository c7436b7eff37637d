import Dataflow.Graph.Reach
import Dataflow.OrderedMap

/-!
# Graphs with edge tables

A graph that keeps, beside its nodes and its edges, two tables with the edges that leave and that enter every
node. Adding writes the four parts one by one; what is asked about a node is read in the tables alone. A node
that a table does not have is an error.
-/

namespace Dataflow

/-- The edges of every node, in order. -/
abbrev EdgeTable (N : Type) := OrderedMap N (List (Edge N))

/-- Nodes and edges in order, and the tables of the edges that leave and that enter every node. -/
structure IndexedGraph (N : Type) where
  entry : N
  exit : N
  nodes : List N
  edges : List (Edge N)
  leaving : EdgeTable N
  entering : EdgeTable N

variable {N : Type} [DecidableEq N]

/-- Adds an edge to those of a node. -/
def EdgeTable.add? (t : EdgeTable N) (n : N) (e : Edge N) : Option (EdgeTable N) :=
  (t.get? n).map fun es => t.insert n (es ++ [e])

namespace IndexedGraph

/-! ## Building -/

/-- Adds a node at the end, unless the table of leaving edges has it. -/
def addNode (t : IndexedGraph N) (n : N) : IndexedGraph N :=
  if t.leaving.contains n then t
  else { t with
    nodes := t.nodes ++ [n]
    leaving := t.leaving.insert n []
    entering := t.entering.insert n [] }

/-- Adds an edge at the end and to both tables, and its ends where they are missing. -/
def addEdge? (t : IndexedGraph N) (e : Edge N) : Option (IndexedGraph N) := do
  let t := (t.addNode e.src).addNode e.dst
  let leaving ← t.leaving.add? e.src e
  let entering ← t.entering.add? e.dst e
  return { t with edges := t.edges ++ [e], leaving := leaving, entering := entering }

/-- The graph of the entry alone. -/
def start (entry exit : N) : IndexedGraph N :=
  addNode ⟨entry, exit, [], [], .empty, .empty⟩ entry

/-! ## Queries -/

def outEdges? (t : IndexedGraph N) (n : N) : Option (List (Edge N)) := t.leaving.get? n

def inEdges? (t : IndexedGraph N) (n : N) : Option (List (Edge N)) := t.entering.get? n

/-- The distinct targets of the edges that leave a node. -/
def succs? (t : IndexedGraph N) (n : N) : Option (List N) :=
  (t.outEdges? n).map fun es => distinct (es.map (·.dst))

/-- The distinct sources of the edges that enter a node. -/
def preds? (t : IndexedGraph N) (n : N) : Option (List N) :=
  (t.inEdges? n).map fun es => distinct (es.map (·.src))

/-! ## Search -/

/-- A search under way: the nodes entered so far, the last one first, and the stack. -/
structure Search (N : Type) where
  entered : List N
  stack : List N

/-- What a pass of the search does. -/
inductive Pass (N : Type) where
  /-- Nothing is on the stack. -/
  | done
  /-- The node on top has no edges in the table. -/
  | missing (n : N)
  | next (s : Search N)

/-- Takes the node on top of the stack. If it was not entered yet, it is entered now, and the targets of the
edges that leave it go on the stack one by one. -/
def pass (t : IndexedGraph N) (s : Search N) : Pass N :=
  match s.stack with
  | [] => .done
  | n :: rest =>
      if n ∈ s.entered then .next ⟨s.entered, rest⟩
      else match t.outEdges? n with
        | none => .missing n
        | some es => .next ⟨n :: s.entered, (es.map (·.dst)).reverse ++ rest⟩

/-- The number of nodes in the table of leaving edges that a search has not entered. -/
def unentered (t : IndexedGraph N) (s : Search N) : Nat :=
  (t.leaving.keys.filter fun n => n ∉ s.entered).length

theorem pass_eq_missing {t : IndexedGraph N} {s : Search N} {n : N} (h : t.pass s = .missing n) :
    n ∈ s.stack ∧ t.outEdges? n = none := by
  simp only [pass] at h
  split at h
  · cases h
  · next k rest hstack =>
      split at h
      · cases h
      · split at h
        · next hnone =>
            cases h
            exact ⟨hstack ▸ List.mem_cons_self, hnone⟩
        · cases h

theorem pass_cases {t : IndexedGraph N} {s s' : Search N} (h : t.pass s = .next s') :
    ∃ n rest, s.stack = n :: rest ∧
      (n ∈ s.entered ∧ s' = ⟨s.entered, rest⟩ ∨
        n ∉ s.entered ∧ ∃ es, t.outEdges? n = some es ∧
          s' = ⟨n :: s.entered, (es.map (·.dst)).reverse ++ rest⟩) := by
  simp only [pass] at h
  split at h
  · cases h
  · next n rest hstack =>
      refine ⟨n, rest, hstack, ?_⟩
      split at h
      · next hn =>
          cases h
          exact .inl ⟨hn, rfl⟩
      · next hn =>
          split at h
          · cases h
          · next es hes =>
              cases h
              exact .inr ⟨hn, es, hes, rfl⟩

/-- A pass enters a node of the table or takes one off the stack. -/
theorem pass_decreases {t : IndexedGraph N} {s s' : Search N} (h : t.pass s = .next s') :
    t.unentered s' < t.unentered s ∨ s'.entered = s.entered ∧ s'.stack.length < s.stack.length := by
  obtain ⟨n, rest, hstack, ⟨-, rfl⟩ | ⟨hn, es, hes, rfl⟩⟩ := pass_cases h
  · exact .inr ⟨rfl, by rw [hstack]; exact Nat.lt_succ_self _⟩
  · have hkey : n ∈ t.leaving.keys :=
      List.mem_map_of_mem (f := Prod.fst) (OrderedMap.get?_eq_some_iff.1 hes)
    exact .inl (length_filter_notMem_cons_lt hkey hn)

/-- Makes passes until nothing is on the stack; the nodes entered. -/
def search (t : IndexedGraph N) (s : Search N) : Option (List N) :=
  match _h : t.pass s with
  | .done => some s.entered
  | .missing _ => none
  | .next s' => t.search s'
termination_by (t.unentered s, s.stack.length)
decreasing_by
  rcases pass_decreases _h with hlt | ⟨heq, hlt⟩
  · exact Prod.Lex.left _ _ hlt
  · have hsame : t.unentered s' = t.unentered s := by rw [unentered, unentered, heq]
    rw [hsame]
    exact Prod.Lex.right _ hlt

/-- The nodes that a search from `n` enters. -/
def reachable? (t : IndexedGraph N) (n : N) : Option (List N) := t.search ⟨[], [n]⟩

end IndexedGraph

/-! ## Sequences of additions -/

/-- Adds a node or an edge to a graph. -/
inductive Addition (N : Type) where
  | node (n : N)
  | edge (e : Edge N)
deriving Repr

namespace Addition

/-- The nodes named, in order. -/
def nodes : Addition N → List N
  | node n => [n]
  | edge e => [e.src, e.dst]

def edge? : Addition N → Option (Edge N)
  | node _ => none
  | edge e => some e

end Addition

/-- The graph with the additions made in order. -/
def Graph.addAll (g : Graph N) (as : List (Addition N)) : Graph N :=
  as.foldl (fun g a => match a with
    | .node n => g.addNode n
    | .edge e => g.addEdge e) g

namespace IndexedGraph

def add? (t : IndexedGraph N) : Addition N → Option (IndexedGraph N)
  | .node n => some (t.addNode n)
  | .edge e => t.addEdge? e

/-- The graph with the additions made in order, unless one of them fails. -/
def addAll? (t : IndexedGraph N) (as : List (Addition N)) : Option (IndexedGraph N) :=
  as.foldlM add? t

end IndexedGraph

end Dataflow
