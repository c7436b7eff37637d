import Dataflow.Env
import Dataflow.Expression

/-!
# The value of an expression in an environment

A binary expression is known if both operands are. An operand that is not a constant wins over one
that is undefined, and a result that does not exist is undefined.
-/

namespace Dataflow

namespace Value

/-- Extends a function of two integers to values. -/
def lift₂ (f : Int → Int → Value) : Value → Value → Value
  | nac, _ => nac
  | _, nac => nac
  | const a, const b => f a b
  | _, _ => undef

end Value

namespace Exp

/-- The value of an expression. Calls, casts, negations and reads of memory are not followed. -/
def eval (env : Env) : Exp → Value
  | lit n => .ofInt n
  | var x => env.get x
  | bin op a b => .lift₂ op.fold (a.eval env) (b.eval env)
  | unclassed _ a b => .lift₂ (fun _ _ => .undef) (a.eval env) (b.eval env)
  | neg _ | cast .. | call .. | field .. => .nac

end Exp

end Dataflow
