import Dataflow.Proofs.Env.Order
import Mathlib.Data.Set.Operations

/-!
# Environments from functions

The environment that has given values on a list of variables, and the one that follows an environment
on a set of variables and another elsewhere.
-/

namespace Dataflow.Env

/-- The variables of the list with the values of the function. -/
def tabulate (l : List Var) (f : Var → Value) : Env := ofList (l.map fun x => (x, f x))

open Classical in
/-- Follows the first environment on the set and the second elsewhere. -/
noncomputable def piecewise (S : Set Var) (e f : Env) : Env :=
  tabulate (e.bindings.keys ++ f.bindings.keys) fun x => if x ∈ S then e.get x else f.get x

theorem get_tabulate (l : List Var) (f : Var → Value) (y : Var) :
    (tabulate l f).get y = if y ∈ l then f y else .undef := by
  have hfold : ∀ e : Env, ((l.map fun x => (x, f x)).foldl (fun e p => e.set p.1 p.2) e).get y =
      if y ∈ l then f y else e.get y := by
    induction l with
    | nil => simp
    | cons x l ih =>
        intro e
        rw [List.map_cons, List.foldl_cons, ih, get_set]
        by_cases hx : x = y
        · subst hx
          simp
        · simp [hx, Ne.symm hx]
  exact hfold empty

variable {S : Set Var} {e f : Env} {x : Var}

open Classical in
theorem get_piecewise : (piecewise S e f).get x = if x ∈ S then e.get x else f.get x := by
  rw [piecewise, get_tabulate]
  split
  · rfl
  -- what neither environment binds is undefined in both
  · next hx =>
      rw [List.mem_append, mem_keys, mem_keys, not_or, not_not, not_not] at hx
      split
      · exact hx.1.symm
      · exact hx.2.symm

theorem get_piecewise_of_mem (h : x ∈ S) : (piecewise S e f).get x = e.get x := by
  classical rw [get_piecewise, if_pos h]

theorem get_piecewise_of_notMem (h : x ∉ S) : (piecewise S e f).get x = f.get x := by
  classical rw [get_piecewise, if_neg h]

end Dataflow.Env
