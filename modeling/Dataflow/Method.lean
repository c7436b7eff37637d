import Dataflow.Statement

/-!
# Methods

A method is a name, parameters, further variables, and a list of statements. A statement may stand
at several positions; the last one is its index. Of several labels with one name the last counts.
-/

namespace Dataflow

/-- A method. -/
structure Method where
  name : String
  params : List Var
  locals : List Var
  body : List Stmt
deriving DecidableEq, Repr

namespace Method

/-- The parameters, then each further variable once. -/
def vars (m : Method) : List Var :=
  m.locals.foldl (fun vs v => if v ∈ vs then vs else vs ++ [v]) m.params

/-- The last position of a statement, or -1 for one outside the body. -/
def index (m : Method) (s : Stmt) : Int :=
  match m.body.reverse.findIdx? (· = s) with
  | some i => (m.body.length : Int) - 1 - i
  | none => -1

/-- The statement that a label name stands for. -/
def label? (m : Method) (name : String) : Option Stmt :=
  m.body.reverse.find? fun s => s.instr.labelName? = some name

/-- The statement at a position; negative positions count from the end. -/
def stmt? (m : Method) (i : Int) : Option Stmt :=
  let j := if i < 0 then i + m.body.length else i
  if j < 0 then none else m.body[j.toNat]?

/-- A statement as written in listings of the method. -/
def stmtText (m : Method) (s : Stmt) : String := s.instr.text (m.index s)

/-- A one-line summary. -/
def text (m : Method) : String :=
  "IR(method=" ++ Text.quoted m.name ++ ", params=" ++ toString m.params.length ++ ", stmts=" ++
    toString m.body.length ++ ")"

end Method

end Dataflow
