import Dataflow.Proofs.Method.Insertion
import Dataflow.Proofs.Propagation.Solving

/-!
# A `nop` is invisible

Constant propagation finds the same facts in a method into which a new `nop` was inserted.
-/

namespace Dataflow.Propagation

open Worklist

variable {m : Method} {g : Graph Node} {s : Stmt} {env : Env}

theorem flow_of_nop (hs : s.instr = .nop) : flow (.stmt s) env = env := by
  simp [flow, Node.instr, hs, Instr.target?]

theorem transfer_of_nop (m : Method) (hs : s.instr = .nop) (before after : Env) :
    AntisymmRel (· ≤ ·) ((problem m).transfer (.stmt s) before after).1 before := by
  have h := transfer_antisymm m (.stmt s) before after
  rwa [flow_of_nop hs] at h

/-- Inserting a new `nop` at any position keeps the facts at the entry, the exit and every statement. -/
theorem solve_insert_nop (h : m.graph = .ok g) :
    ∃ t, SolvesTo m g t ∧ ∀ i ≤ m.body.length, ∀ s, s.instr = .nop → s ∉ m.body →
      ∃ g' t', (m.insert i s).graph = .ok g' ∧ SolvesTo (m.insert i s) g' t' ∧ Agree g t t' := by
  have hentry := Method.dst_ne_entry h
  obtain ⟨herr, t, ht, hsolves⟩ := solve_problem m hentry
  refine ⟨t, ⟨herr, ht⟩, fun i hi s hs hfresh => ?_⟩
  obtain ⟨g', h'⟩ := Method.exists_graph_insert hs hi h
  have hentry' := Method.dst_ne_entry h'
  obtain ⟨herr', t', ht', hsolves'⟩ := solve_problem (m.insert i s) hentry'
  have hd : g.Detour g' (.stmt s) (m.nodeAt i) := Method.detour_insert hs hi hfresh h h'
  have hle : t.Below g t' :=
    hsolves.below_detour hd (fun f o => (transfer_of_nop m hs f o).2) hentry' hsolves'
  have hge : t'.Below g t :=
    hsolves.below_of_detour hd (fun f o => (transfer_of_nop m hs f o).1) hentry hsolves'
  exact ⟨g', t', h', ⟨herr', ht'⟩, agree_of_below hle hge⟩

/-- After the return a `nop` is never reached, but it leads on to the statement that follows. -/
theorem solve_insert_nop_countdown :
    ∃ g t g' t', countdown.graph = .ok g ∧ SolvesTo countdown g t ∧
      (countdown.insert 7 ⟨7, .nop⟩).graph = .ok g' ∧
      g'.Links (.stmt ⟨7, .nop⟩) (countdown.nodeAt 7) ∧
      SolvesTo (countdown.insert 7 ⟨7, .nop⟩) g' t' ∧ Agree g t t' := by
  obtain ⟨t, ht, hall⟩ := solve_insert_nop (m := countdown) rfl
  obtain ⟨g', t', hg', ht', hagree⟩ := hall 7 (by decide) ⟨7, .nop⟩ rfl (by decide)
  have hd := Method.detour_insert rfl (by decide) (by decide) rfl hg'
  exact ⟨_, t, g', t', rfl, ht, hg', hd.leaves, ht', hagree⟩

end Dataflow.Propagation
