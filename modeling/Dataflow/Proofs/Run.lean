import Dataflow.Proofs.Except
import Dataflow.Run

/-!
# Runs from the initial registry

Constant propagation alone can be selected. It gives a report exactly if the method has a graph and solving
ends without an error.
-/

namespace Dataflow

open Propagation Worklist

theorem Registry.find_initial {id : String} {a : Analysis} :
    initial.find id = .ok a ↔ id = "constprop" ∧ a = .constants "ConstantPropagation" "constprop" := by
  have hget : initial.get? id =
      if "constprop" = id then some (.constants "ConstantPropagation" "constprop") else none := by
    rw [initial, OrderedMap.get?_insert, OrderedMap.get?_empty]
  unfold find
  rw [hget]
  by_cases h : id = "constprop"
  · simp [h, eq_comm]
  · simp [h, Ne.symm h]

theorem runMethod_eq_ok {m : Method} {s : Selection} {limit : Option Int} {r : Report} :
    (runMethod .initial m s limit).2 = .ok r ↔ s.id = "constprop" ∧ ∃ g, m.graph = .ok g ∧
      (solve (problem m) g limit).error = none ∧ r = ⟨m, s, g, (solve (problem m) g limit).solution⟩ := by
  unfold runMethod
  cases hfind : Registry.initial.find s.id with
  | error e =>
      have hid : s.id ≠ "constprop" := fun hid => by
        rw [Registry.find_initial.2 ⟨hid, rfl⟩] at hfind
        cases hfind
      simp [hid]
  | ok analysis =>
      obtain ⟨hid, rfl⟩ := Registry.find_initial.1 hfind
      have hproblem : (Analysis.constants "ConstantPropagation" "constprop").problem m = problem m := rfl
      simp only [hproblem, hid, true_and]
      cases m.graph with
      | error e => simp
      | ok g =>
          cases herror : (solve (problem m) g limit).error with
          | some e => simp [herror]
          | none =>
              simp only [Except.ok.injEq, exists_eq_left', herror, true_and]
              exact eq_comm

end Dataflow
