import Dataflow.Text.Quoted

/-!
# Flow graphs

A graph has an entry, an exit, its nodes in order and its edges in order. The exit need not be a
node yet. Edges out of a node, edges into it, successors and predecessors are all read off the one
list of edges.
-/

namespace Dataflow

/-- The total of numbers. -/
def total (l : List Nat) : Nat := l.foldr (· + ·) 0

/-- The first occurrence of every element. -/
def distinct {α : Type} [DecidableEq α] : List α → List α
  | [] => []
  | a :: l => a :: (distinct l).filter (· ≠ a)

/-- Why control passes along an edge. -/
inductive EdgeKind where
  | entry
  | fallThrough
  | ifTrue
  | ifFalse
  | goto
  | ret
deriving DecidableEq, Repr

namespace EdgeKind

/-- Every kind. -/
def all : List EdgeKind := [entry, fallThrough, ifTrue, ifFalse, goto, ret]

def name : EdgeKind → String
  | entry => "entry"
  | fallThrough => "fall-through"
  | ifTrue => "if-true"
  | ifFalse => "if-false"
  | goto => "goto"
  | ret => "return"

/-- A name that no kind has. -/
structure Unknown where
  name : String
deriving DecidableEq, Repr

def Unknown.message (e : Unknown) : String :=
  Text.quoted e.name ++ " is not a valid EdgeKind"

/-- The kind with a name. -/
def ofName (s : String) : Except Unknown EdgeKind :=
  match all.find? fun k => k.name == s with
  | some k => .ok k
  | none => .error ⟨s⟩

end EdgeKind

/-- A directed edge. -/
structure Edge (N : Type) where
  src : N
  dst : N
  kind : EdgeKind
deriving DecidableEq, Repr

/-- A graph whose nodes are distinct and contain the entry and both ends of every edge. -/
structure Graph (N : Type) where
  name : String
  entry : N
  exit : N
  nodes : List N
  edges : List (Edge N)
  nodup : nodes.Nodup
  entry_mem : entry ∈ nodes
  ends_mem : ∀ e ∈ edges, e.src ∈ nodes ∧ e.dst ∈ nodes

namespace Graph

variable {N : Type} [DecidableEq N]

/-! ## Building -/

/-- The graph of the entry alone. -/
def start (name : String) (entry exit : N) : Graph N where
  name := name
  entry := entry
  exit := exit
  nodes := [entry]
  edges := []
  nodup := List.nodup_cons.2 ⟨List.not_mem_nil, List.nodup_nil⟩
  entry_mem := List.mem_singleton.2 rfl
  ends_mem := nofun

/-- Adds a node at the end, unless it is there. -/
def addNode (g : Graph N) (n : N) : Graph N :=
  if h : n ∈ g.nodes then g else
    { g with
      nodes := g.nodes ++ [n]
      nodup := List.nodup_append.2 ⟨g.nodup, List.nodup_cons.2 ⟨List.not_mem_nil, List.nodup_nil⟩,
        fun _ ha _ hb e => h (List.mem_singleton.1 hb ▸ e ▸ ha)⟩
      entry_mem := List.mem_append_left _ g.entry_mem
      ends_mem := fun e he =>
        (g.ends_mem e he).imp (List.mem_append_left _) (List.mem_append_left _) }

theorem mem_addNode {g : Graph N} {n m : N} : m ∈ (g.addNode n).nodes ↔ m ∈ g.nodes ∨ m = n := by
  unfold addNode
  split
  · next h => exact ⟨.inl, fun hm => hm.elim id (· ▸ h)⟩
  · simp

theorem edges_addNode (g : Graph N) (n : N) : (g.addNode n).edges = g.edges := by
  unfold addNode; split <;> rfl

/-- Adds an edge at the end, and its ends where they are missing. -/
def addEdge (g : Graph N) (e : Edge N) : Graph N :=
  let g' := (g.addNode e.src).addNode e.dst
  { g' with
    edges := g.edges ++ [e]
    ends_mem := by
      intro e' he'
      simp only [g', mem_addNode]
      rcases List.mem_append.1 he' with h | h
      · exact (g.ends_mem e' h).imp (fun h => .inl (.inl h)) (fun h => .inl (.inl h))
      · rw [List.mem_singleton.1 h]; exact ⟨.inl (.inr rfl), .inr rfl⟩ }

/-! ## Neighbours -/

/-- The edges that leave a node, in order. -/
def outEdges (g : Graph N) (n : N) : List (Edge N) := g.edges.filter fun e => e.src = n

/-- The edges that enter a node, in order. -/
def inEdges (g : Graph N) (n : N) : List (Edge N) := g.edges.filter fun e => e.dst = n

/-- The distinct targets of the edges that leave a node. -/
def succs (g : Graph N) (n : N) : List N := distinct ((g.outEdges n).map (·.dst))

/-- The distinct sources of the edges that enter a node. -/
def preds (g : Graph N) (n : N) : List N := distinct ((g.inEdges n).map (·.src))

/-- A query about a node, which fails outside the graph. -/
def at? {α : Type} (g : Graph N) (n : N) (query : N → α) : Option α :=
  if n ∈ g.nodes then some (query n) else none

end Graph

end Dataflow
