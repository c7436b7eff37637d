import Dataflow.Proofs.Method.Forward
import Dataflow.Proofs.Propagation.Resuming
import Dataflow.Proofs.Worklist.Sweep

/-!
# Constant propagation in one pass

Where every edge leads to a later node, constant propagation is one pass over the nodes in order. The
visits after that pass are those of the successors of the nodes that leave some variable a value.
-/

namespace Dataflow.Propagation

open Worklist

variable {m : Method} {g : Graph Node} {n : Node}

theorem changed_sweep (hg : g.Forward) (hn : n ∈ seed g) :
    ((problem m).transfer n ((sweep (problem m) g).before n) (problem m).initial).2 =
      decide (((sweep (problem m) g).after n).bindings.keys ≠ []) := by
  have hkeys : AntisymmRel (· ≤ ·) (problem m).initial ((sweep (problem m) g).after n) ↔
      ((sweep (problem m) g).after n).bindings.keys = [] := by
    rw [Env.keys_eq_nil_iff, Env.antisymm_iff]
    exact forall_congr' fun x => eq_comm
  rw [Bool.eq_iff_iff, decide_eq_true_iff, ne_eq, ← hkeys,
    ← unchanged_sweep_iff (problem_monotone m) hg hn, Bool.not_eq_false]

/-- On a graph whose edges all lead to later nodes, solving gives the tables of one pass over the nodes in
order, after one visit for every node but the entry and one for every successor of those that leave some
variable a value. The graphs of methods of distinct statements that jump forward only are of this kind. -/
theorem solve_sweep (m : Method) :
    (∀ g : Graph Node, g.Forward →
      SolvesTo m g (sweep (problem m) g) ∧
        (solve (problem m) g none).solution.iterations = (seed g).length +
          total (((seed g).filter fun n => ((sweep (problem m) g).after n).bindings.keys ≠ []).map
            fun n => (g.succs n).length)) ∧
      ∀ g, m.graph = .ok g → m.body.Nodup → m.JumpsForward → g.Forward := by
  refine ⟨fun g hg => ?_, fun g => Method.forward_of_graph⟩
  obtain ⟨herr, hholds, hiterations⟩ :=
    solve_eq_sweep (problem_monotone m) (problem_keeping m) rfl hg (terminates m holds_startForward)
  refine ⟨⟨herr, hholds⟩, ?_⟩
  rw [hiterations, List.filter_congr fun n hn => changed_sweep hg hn]

/-- Two branches give a variable different constants. -/
def fork : Method where
  name := "fork"
  params := []
  locals := [⟨"x", .prim .int⟩]
  body :=
    let x : Var := ⟨"x", .prim .int⟩
    [⟨0, .branch (.bin .gt (.var x) (.lit 0)) "other"⟩, ⟨1, .assign x (.lit 1)⟩, ⟨2, .goto "done"⟩,
      ⟨3, .label "other"⟩, ⟨4, .assign x (.lit 2)⟩, ⟨5, .label "done"⟩, ⟨6, .ret (some (.var x))⟩]

theorem solve_sweep_fork :
    ∃ g, fork.graph = .ok g ∧ fork.body.Nodup ∧ fork.JumpsForward ∧ g.Forward ∧
      SolvesTo fork g (sweep (problem fork) g) ∧ (solve (problem fork) g none).solution.iterations = 13 ∧
      ((sweep (problem fork) g).before (fork.nodeAt 5)).get ⟨"x", .prim .int⟩ = .nac := by
  obtain ⟨hsweep, hmethod⟩ := solve_sweep fork
  have hbody : fork.body.Nodup := by decide
  have hjumps : fork.JumpsForward := Method.jumpsForward_of_labels (by decide)
  obtain ⟨g, hg, hcount, hbefore⟩ : ∃ g, fork.graph = .ok g ∧
      (seed g).length + total (((seed g).filter fun n =>
        ((sweep (problem fork) g).after n).bindings.keys ≠ []).map fun n => (g.succs n).length) = 13 ∧
      ((sweep (problem fork) g).before (fork.nodeAt 5)).get ⟨"x", .prim .int⟩ = .nac :=
    ⟨_, rfl, by decide, by decide⟩
  have hforward := hmethod g hg hbody hjumps
  obtain ⟨hsolves, hiterations⟩ := hsweep g hforward
  exact ⟨g, hg, hbody, hjumps, hforward, hsolves, hiterations.trans hcount, hbefore⟩

end Dataflow.Propagation
