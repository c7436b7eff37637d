import Dataflow.Graph.Reach
import Dataflow.Graph.Indexed
import Dataflow.Propagation.Memory
import Dataflow.Main
import Dataflow.Proofs.Env.Order
import Dataflow.Proofs.Env.Tabulate
import Dataflow.Proofs.Graph.Neighbours
import Dataflow.Proofs.Worklist.Visits
import Dataflow.Proofs.Worklist.Monotone
import Dataflow.Proofs.Worklist.Attempt
import Dataflow.Proofs.Worklist.Limit
import Dataflow.Proofs.Worklist.Invariant
import Dataflow.Proofs.Worklist.Termination
import Dataflow.Proofs.Worklist.LeastSolution
import Dataflow.Proofs.Propagation.Monotone
import Dataflow.Proofs.Method.Edges
import Dataflow.Proofs.Method.Alignment
import Dataflow.Proofs.Propagation.Solving
import Dataflow.Proofs.Execution.Run
import Dataflow.Proofs.Execution.Soundness
import Dataflow.Proofs.Propagation.Confluence
import Dataflow.Proofs.Propagation.Definitions
import Dataflow.Proofs.Propagation.Comparison
import Dataflow.Proofs.Propagation.Slice
import Dataflow.Proofs.Propagation.Folding
import Dataflow.Proofs.Worklist.Stability
import Dataflow.Proofs.Propagation.Resuming
import Dataflow.Proofs.Method.Insertion
import Dataflow.Proofs.Propagation.Insertion
import Dataflow.Proofs.Propagation.Untracked
import Dataflow.Proofs.Method.Positions
import Dataflow.Proofs.Propagation.Entry
import Dataflow.Proofs.Program.Grammar
import Dataflow.Proofs.Program.Declarations
import Dataflow.Proofs.Program.WellFormed
import Dataflow.Proofs.Execution.Exact
import Dataflow.Proofs.Numeral.Decimal
import Dataflow.Proofs.Selection
import Dataflow.Proofs.Report.Faithful
import Dataflow.Proofs.Command.AllOrNothing
import Dataflow.Proofs.Numeral.Radix
import Dataflow.Proofs.Worklist.Rising
import Dataflow.Proofs.Propagation.Rising
import Dataflow.Proofs.Graph.Reach
import Dataflow.Proofs.Propagation.Parameters
import Dataflow.Proofs.Worklist.Sweep
import Dataflow.Proofs.Method.Forward
import Dataflow.Proofs.Propagation.Sweep
import Dataflow.Proofs.Env.Merging
import Dataflow.Proofs.Graph.Quoting
import Dataflow.Proofs.Program.Slots
import Dataflow.Proofs.Command.ExitCode
import Dataflow.Proofs.Propagation.Memory
import Dataflow.Proofs.Graph.Indexed
import Dataflow.Proofs.Graph.Search
