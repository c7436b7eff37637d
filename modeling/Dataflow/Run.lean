import Dataflow.Graph.Listing
import Dataflow.Registry
import Dataflow.Report
import Dataflow.Report.Event
import Dataflow.Worklist

/-!
# Running a selected analysis on a method

The analysis is found first, then the graph is built, then the problem is solved. A selection that
cannot be written is not told.
-/

namespace Dataflow

/-- Why there is no report about a method. -/
inductive RunError where
  | registry (e : RegistryError)
  | missingLabel (e : MissingLabel)
  | solve (e : SolveError)
deriving DecidableEq, Repr

def RunError.message : RunError → String
  | registry e => e.message
  | missingLabel e => e.message
  | solve e => e.message

/-- The events of visits, counted from `count` on. -/
def visitEvents (m : Method) (g : Graph Node) (count : Nat) :
    List (Worklist.Visit Node Env) → List Event
  | [] => []
  | v :: vs =>
      .visited count (g.label m.labelling v.node) v.after.text v.changed ::
        visitEvents m g (count + 1) vs

/-- Runs the selected analysis with at most `limit` visits if there is a limit. -/
def runMethod (registry : Registry) (m : Method) (s : Selection) (limit : Option Int) :
    List Event × Except RunError Report :=
  match registry.find s.id with
  | .error e => ([], .error (.registry e))
  | .ok analysis =>
      match m.graph with
      | .error e => ([], .error (.missingLabel e))
      | .ok g =>
          let p := analysis.problem m
          let a := Worklist.solve p g limit
          let start : List Event := if s.fits then [.running s.text m.name] else []
          let events := start ++ visitEvents m g 1 a.visits
          match a.error with
          | some e => (events, .error (.solve e))
          | none =>
              (events ++ [.solved p.name g.text a.solution.iterations], .ok ⟨m, s, g, a.solution⟩)

end Dataflow
