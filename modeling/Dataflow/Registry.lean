import Dataflow.Propagation
import Dataflow.Selection

/-!
# The registry of analyses

The analyses that can be selected, by id. A later registration replaces an earlier one.
-/

namespace Dataflow

/-- An analysis that can be selected: for every method a dataflow problem. -/
structure Analysis where
  name : String
  id : String
  problem : Method → Problem Node Env

/-- Constant propagation under a name and an id. -/
def Analysis.constants (name id : String) : Analysis :=
  ⟨name, id, fun m => { Propagation.problem m with name := name }⟩

/-- The analyses by id. -/
abbrev Registry := OrderedMap String Analysis

/-- Why an analysis cannot be registered or found. -/
inductive RegistryError where
  | noId (name : String)
  | unknown (id : String) (available : List String)
deriving DecidableEq, Repr

def RegistryError.message : RegistryError → String
  | noId name => name ++ " has no ID"
  | unknown id available =>
      "Unknown analysis " ++ Text.quoted id ++ "; available: " ++
        (if available = [] then "(none)" else ", ".intercalate available)

namespace Registry

/-- The ids in order. -/
def available (r : Registry) : List String := r.keys.mergeSort fun a b => !(b < a : Bool)

/-- Registers an analysis under its id, which must not be empty. -/
def register (r : Registry) (a : Analysis) : Except RegistryError Registry :=
  if a.id = "" then .error (.noId a.name) else .ok (r.insert a.id a)

/-- The analysis with an id. -/
def find (r : Registry) (id : String) : Except RegistryError Analysis :=
  match r.get? id with
  | some a => .ok a
  | none => .error (.unknown id (available r))

/-- The registry at the start: constant propagation alone. -/
def initial : Registry :=
  OrderedMap.empty.insert "constprop" (.constants "ConstantPropagation" "constprop")

end Registry

/-- An analysis with the selection that chose it, as shown in messages. -/
def Analysis.shown (a : Analysis) (s : Selection) : String := a.name ++ "(" ++ s.shown ++ ")"

end Dataflow
