import Dataflow.Expression.Eval
import Dataflow.Method.Flow
import Dataflow.Problem

/-!
# Constant propagation

A forward problem whose facts are environments. Parameters are unknown at the entry. A definition
of a variable that fits a 32-bit integer gives it the value of its source; all other variables are
left out.
-/

namespace Dataflow.Propagation

/-- The environment after a node. -/
def flow (n : Node) (env : Env) : Env :=
  match n.instr.target? with
  | some x =>
      if x.tracked then env.set x ((n.instr.source?.map (·.eval env)).getD .nac) else env
  | none => env

/-- The environment at the entry of a method. -/
def boundary (m : Method) : Env :=
  m.params.foldl (fun env x => if x.tracked then env.set x .nac else env) ∅

/-- The variables that can have a value in a run: those of the facts it starts from and those that
a node defines. -/
def support (g : Graph Node) (s : Solution Node Env) : List Var :=
  distinct ((s.ins.toList ++ s.outs.toList).flatMap (fun p => p.2.bindings.keys) ++
    (g.nodes.filterMap (·.instr.target?)).filter Var.tracked)

/-- Constant propagation for a method. Every value can rise twice. -/
def problem (m : Method) : Problem Node Env where
  name := "ConstantPropagation"
  direction := .forward
  boundary := boundary m
  initial := ∅
  meet := Env.merge
  transfer n before after := after.assign (flow n before)
  height g s := 2 * (support g s).length

end Dataflow.Propagation
