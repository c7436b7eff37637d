/-!
# Events

What a command tells about its work, each with a level and the part of the program that tells it.
-/

namespace Dataflow

/-- How much an event matters. -/
inductive Level where
  | debug
  | info
  | error
deriving DecidableEq, Repr

namespace Level

/-- The name in five characters. -/
def tag : Level → String
  | debug => "DEBUG"
  | info => "INFO "
  | error => "ERROR"

/-- Errors are always told, other events from a verbosity on. -/
def toldFrom : Level → Nat
  | error => 0
  | info => 1
  | debug => 2

end Level

/-- What happened. -/
inductive Event where
  | reading (path : String)
  | parsed (methods : List String)
  | running (selection method : String)
  | visited (count : Nat) (label fact : String) (changed : Bool)
  | solved (problem graph : String) (count : Nat)
  | failed (message : String)
deriving DecidableEq, Repr

namespace Event

def level : Event → Level
  | reading _ | running .. | solved .. => .info
  | parsed _ | visited .. => .debug
  | failed _ => .error

/-- The part of the program that tells the event. -/
def source : Event → String
  | reading _ | failed _ => "tacflow"
  | parsed _ => "tacflow.parser"
  | running .. => "tacflow.config"
  | visited .. | solved .. => "tacflow.solver"

/-- The text of an event; `elapsed` is the time that solving took. -/
def message (elapsed : String) : Event → String
  | reading path => "Parsing IR file: " ++ path
  | parsed methods =>
      "Parsed " ++ toString methods.length ++ " method(s): " ++ ", ".intercalate methods
  | running selection method => "Running " ++ selection ++ " on " ++ method
  | visited count label fact changed =>
      "iteration " ++ toString count ++ ": " ++ label ++ " -> " ++ fact ++
        (if changed then " (changed)" else "")
  | solved problem graph count =>
      problem ++ " reached a fixpoint on " ++ graph ++ " after " ++ toString count ++
        " iterations (" ++ elapsed ++ "s)"
  | failed message => message

/-- The line of an event at a time of day. -/
def line (time elapsed : String) (e : Event) : String :=
  time ++ " [" ++ e.level.tag ++ "] " ++ e.source ++ ": " ++ e.message elapsed ++ "\n"

/-- The lines that a verbosity tells. -/
def log (verbosity : Nat) (time elapsed : String) (es : List Event) : String :=
  String.join ((es.filter fun e => e.level.toldFrom ≤ verbosity).map (line time elapsed))

end Event

end Dataflow
