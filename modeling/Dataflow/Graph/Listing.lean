import Dataflow.Graph

/-!
# Graphs as text

One-line labels of nodes and edges, and the description of a graph in the DOT language.
-/

namespace Dataflow

/-- How nodes are written, and the index of those that have one. -/
structure Labelling (N : Type) where
  text : N → String
  index : N → Option Int

namespace Graph

variable {N : Type} [DecidableEq N]

/-- The label of a node: its role, or its index and text. -/
def label (g : Graph N) (v : Labelling N) (n : N) : String :=
  if n = g.entry then "[entry]"
  else if n = g.exit then "[exit]"
  else match v.index n with
    | some i => if 0 ≤ i then toString i ++ ": " ++ v.text n else v.text n
    | none => v.text n

/-- A one-line summary. -/
def text (g : Graph N) : String :=
  "CFG(method=" ++ Text.quoted g.name ++ ", nodes=" ++ toString g.nodes.length ++ ", edges=" ++
    toString g.edges.length ++ ")"

/-! ## DOT -/

/-- Puts a backslash before every double quote. -/
def escapeQuotes (s : String) : String :=
  String.ofList (s.toList.flatMap fun c => if c = '"' then ['\\', '"'] else [c])

/-- The entry is green and the exit red. -/
def nodeStyle (g : Graph N) (n : N) : String :=
  if n = g.entry then ", style=filled, fillcolor=\"#ccffcc\""
  else if n = g.exit then ", style=filled, fillcolor=\"#ffcccc\""
  else ""

/-- Branches are coloured and returns dotted. -/
def edgeStyle : EdgeKind → String
  | .ifTrue => ", color=green, fontcolor=green"
  | .ifFalse => ", color=red, fontcolor=red"
  | .ret => ", style=dotted"
  | _ => ""

/-- The position of a node. -/
def position (g : Graph N) (n : N) : Nat := g.nodes.findIdx (· = n)

def dotNode (g : Graph N) (v : Labelling N) (n : N) : String :=
  "  N" ++ toString (g.position n) ++ " [label=\"" ++ escapeQuotes (g.label v n) ++ "\"" ++
    g.nodeStyle n ++ "];"

def dotEdge (g : Graph N) (e : Edge N) : String :=
  "  N" ++ toString (g.position e.src) ++ " -> N" ++ toString (g.position e.dst) ++
    " [label=\"" ++ e.kind.name ++ "\"" ++ edgeStyle e.kind ++ "];"

/-- The lines of the description. An empty title is left out. -/
def dotLines (g : Graph N) (v : Labelling N) (title : String) : List String :=
  ["digraph CFG \x7b"] ++
    (if title = "" then [] else ["  label=\"" ++ title ++ "\";"]) ++
    ["  node [shape=box, fontname=monospace, fontsize=10];"] ++
    g.nodes.map (g.dotNode v) ++ g.edges.map g.dotEdge ++ ["\x7d"]

/-- The graph in the DOT language. -/
def dot (g : Graph N) (v : Labelling N) (title : String) : String :=
  "\n".intercalate (g.dotLines v title)

end Graph

/-- An edge as shown in messages. -/
def Edge.text {N : Type} (v : Labelling N) (e : Edge N) : String :=
  "CFGEdge(" ++ v.text e.src ++ " -> " ++ v.text e.dst ++ ", kind=" ++
    Text.quoted e.kind.name ++ ")"

end Dataflow
