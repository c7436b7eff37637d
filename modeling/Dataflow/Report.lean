import Dataflow.Method.Flow
import Dataflow.Env
import Dataflow.Report.Json
import Dataflow.Selection
import Dataflow.Solution

/-!
# Reports

The solution of a method, one row for each node, as text in columns or as JSON.
-/

namespace Dataflow

/-- A node with the facts before and after it. -/
structure Row where
  index : Int
  label : String
  before : Option Env
  after : Option Env

/-- What a report is about. -/
structure Report where
  method : Method
  selection : Selection
  graph : Graph Node
  solution : Solution Node Env

namespace Report

/-- The rows in the order of the graph. -/
def rows (r : Report) : List Row :=
  r.graph.nodes.map fun n => {
    index := (r.method.labelling.index n).getD (-1)
    label := r.graph.label r.method.labelling n
    before := r.solution.ins.get? n
    after := r.solution.outs.get? n }

/-! ## Text -/

/-- A fact as written in a row. -/
def factText : Option Env → String
  | some e => e.text
  | none => "None"

/-- The width of the first column. -/
def width (rows : List Row) : Nat := rows.foldl (fun w r => max w r.label.length) 0

/-- Pads with spaces on the right. -/
def padded (width : Nat) (s : String) : String :=
  s ++ String.ofList (List.replicate (width - s.length) ' ')

def rowText (width : Nat) (r : Row) : String :=
  "  " ++ padded width r.label ++ "  IN " ++ factText r.before ++ "  OUT " ++
    factText r.after ++ "\n"

/-- The report in columns. -/
def text (r : Report) : String :=
  "== " ++ r.method.name ++ " (" ++ r.selection.text ++ ", " ++ toString r.solution.iterations ++
    " iterations)\n" ++ String.join (r.rows.map (rowText (width r.rows))) ++ "\n"

/-! ## JSON -/

/-- A fact by variable name. -/
def factJson : Option Env → Json
  | some e => .object (e.texts.toList.map fun p => (p.1, .string p.2))
  | none => .null

def rowJson (r : Row) : Json :=
  .object [("index", .int r.index), ("stmt", .string r.label), ("in", factJson r.before),
    ("out", factJson r.after)]

def settingJson : Setting → Json
  | .bool b => .bool b
  | .int n => .int n
  | .text s => .string s

/-- The report as a document. -/
def json (r : Report) : Json :=
  .object [
    ("method", .string r.method.name),
    ("analysis", .string r.selection.id),
    ("options", .object (r.selection.options.toList.map fun p => (p.1, settingJson p.2))),
    ("iterations", .int r.solution.iterations),
    ("nodes", .array (r.rows.map rowJson))]

end Report

end Dataflow
