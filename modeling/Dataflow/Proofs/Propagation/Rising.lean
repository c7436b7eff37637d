import Dataflow.Proofs.Propagation.Solving
import Dataflow.Proofs.Worklist.Rising

/-!
# Runs from the start rise

Where no edge enters the entry, every visit of a run from the start raises both facts of its node, says
exactly whether the fact after the node changed, and leaves the facts of all other nodes alone. Where the
run ends, the facts are above all that it wrote on the way.
-/

namespace Dataflow.Propagation

open Worklist

variable {m : Method} {g : Graph Node} {t t' l : Facts Node Env} {v : Visit Node Env}
  {vs ws : List (Visit Node Env)} {s s' : State Node Env} {final : Solution Node Env}

/-- The visit raises the facts of its node from those of the first solution to those of the second. -/
structure Raises (m : Method) (s : Solution Node Env) (v : Visit Node Env) (s' : Solution Node Env) :
    Prop where
  old : ∃ before after, s.ins.get? v.node = some before ∧ s.outs.get? v.node = some after ∧
    (problem m).transfer v.node v.before after = (v.after, v.changed) ∧
    before ≤ v.before ∧ after ≤ v.after ∧ (v.changed = true ↔ ∃ x, after.get x ≠ v.after.get x)
  new : s'.ins.get? v.node = some v.before ∧ s'.outs.get? v.node = some v.after
  others : ∀ n ≠ v.node, s'.ins.get? n = s.ins.get? n ∧ s'.outs.get? n = s.outs.get? n

/-- What the visit wrote is below the facts that the solution has at its node. -/
def Under (v : Visit Node Env) (s : Solution Node Env) : Prop :=
  ∃ before after, s.ins.get? v.node = some before ∧ s.outs.get? v.node = some after ∧
    v.before ≤ before ∧ v.after ≤ after

theorem changed_iff (m : Method) (n : Node) (before after : Env) :
    ((problem m).transfer n before after).2 = true ↔
      ∃ x, after.get x ≠ ((problem m).transfer n before after).1.get x := by
  rw [← Bool.not_eq_false, ← not_iff_not, not_not, (problem_monotone m).unchanged_iff,
    Env.antisymm_iff]
  simp

theorem raises_of_step (hs : s.Holds g t) (hi : Ascending (problem m) g t s.queue)
    (h : step (problem m) g s = .next v s') : Raises m s.solution v s'.solution := by
  obtain ⟨n, rest, hq, hn, rfl, hs', -⟩ := step_next hs h
  have hsupported := hi.supported n (Ascending.head_ne_entry (hq ▸ hi))
  refine ⟨⟨t.before n, t.after n, (hs.facts n hn).1, (hs.facts n hn).2, rfl,
    before_le_met (problem_monotone m), hsupported.after_le_result (problem_monotone m),
    changed_iff m n _ _⟩, ?_, fun k hk => ?_⟩
  · obtain ⟨hin, hout⟩ := hs'.facts n hn
    rw [before_visit_self] at hin
    rw [after_visit_self] at hout
    exact ⟨hin, hout⟩
  · rw [(step_writes hs h).2]
    simp only [Solution.setIn, Solution.setOut, OrderedMap.get?_insert, if_neg hk.symm, and_self]

theorem Raises.under (h : Raises m s.solution v s'.solution) (hs' : s'.Holds g t') (hv : v.node ∈ g.nodes)
    (hbelow : t'.Below g l) (hl : final.Holds g l) : Under v final := by
  obtain ⟨hin, hout⟩ := hs'.facts _ hv
  obtain ⟨hlin, hlout⟩ := hl _ hv
  obtain ⟨hbefore, hafter⟩ := hbelow _ hv
  rw [← Option.some.inj (h.new.1.symm.trans hin)] at hbefore
  rw [← Option.some.inj (h.new.2.symm.trans hout)] at hafter
  exact ⟨_, _, hlin, hlout, hbefore, hafter⟩

/-- Where no edge enters the entry, every visit of a run from the start raises the facts of its node, counts
as a change exactly if the fact after the node differs for some variable, and changes no fact of another
node. Both facts stay below those that the run ends with, whatever its limit, and below the solution. -/
theorem solve_rises (m : Method) (hentry : ∀ e ∈ g.edges, e.dst ≠ g.entry) (limit : Option Int)
    (hvisits : (solve (problem m) g limit).visits = vs ++ v :: ws) :
    ∃ s s', Visits (problem m) g ⟨startForward (problem m) g, seed g⟩ vs s ∧
      step (problem m) g s = .next v s' ∧ Raises m s.solution v s'.solution ∧
      Under v (solve (problem m) g limit).solution ∧ Under v (solve (problem m) g none).solution := by
  have hp := problem_monotone m
  obtain ⟨f, hrun, hins, houts⟩ := solve_visits (p := problem m) (g := g) rfl limit
  rw [hvisits, List.append_cons, visits_append_iff] at hrun
  obtain ⟨s', hbefore, hafter⟩ := hrun
  have hreached := hbefore.reached hp hentry holds_startForward
  obtain ⟨s, hbefore, hlast⟩ := visits_append_iff.1 hbefore
  obtain ⟨t, hs, hi, -⟩ := hbefore.ascending hp hentry (holds_seed holds_startForward) (ascending_start hp)
  obtain ⟨t', hs', hi', -⟩ := hlast.ascending hp hentry hs hi
  obtain ⟨t'', hf, -, hbelow⟩ := hafter.ascending hp hentry hs' hi'
  cases hlast with
  | cons hstep hnil =>
      cases hnil
      have hraises := raises_of_step hs hi hstep
      have hv := (step_writes hs hstep).1
      refine ⟨s, s', hbefore, hstep, hraises, hraises.under hs' hv hbelow ?_, ?_⟩
      · intro n hn
        rw [hins, houts]
        exact hf.facts n hn
      · obtain ⟨-, l, hl, hsolves⟩ := solve_problem m hentry
        obtain ⟨u, hu, hr⟩ := hreached
        have hle : u.Below g l :=
          hr.below l (hsolves.closed hentry) (startFacts_below hp hsolves.after_entry.ge)
        exact hraises.under hu hv hle hl

/-- Of twelve visits the ninth is the second one of the label, after which the variable that the loop assigns
has a value there. -/
theorem solve_rises_countdown :
    ∃ g vs v ws s s', countdown.graph = .ok g ∧ (∀ e ∈ g.edges, e.dst ≠ g.entry) ∧
      (solve (problem countdown) g (some 12)).visits = vs ++ v :: ws ∧ vs.length = 8 ∧
      v.node = countdown.nodeAt 1 ∧ v.changed = true ∧
      Visits (problem countdown) g ⟨startForward (problem countdown) g, seed g⟩ vs s ∧
      step (problem countdown) g s = .next v s' ∧ Raises countdown s.solution v s'.solution ∧
      Under v (solve (problem countdown) g (some 12)).solution ∧
      Under v (solve (problem countdown) g none).solution := by
  obtain ⟨g, hg, hninth⟩ : ∃ g, countdown.graph = .ok g ∧
      ((solve (problem countdown) g (some 12)).visits[8]?).map (fun v => (v.node, v.changed)) =
        some (countdown.nodeAt 1, true) := ⟨_, rfl, by decide +kernel⟩
  obtain ⟨v, hv, hnode⟩ := Option.map_eq_some_iff.1 hninth
  obtain ⟨hlen, hv⟩ := List.getElem?_eq_some_iff.1 hv
  have hentry := Method.dst_ne_entry hg
  have hsplit : (solve (problem countdown) g (some 12)).visits =
      (solve (problem countdown) g (some 12)).visits.take 8 ++
        v :: (solve (problem countdown) g (some 12)).visits.drop 9 := by
    rw [← hv, List.getElem_cons_drop, List.take_append_drop]
  obtain ⟨s, s', hrun⟩ := solve_rises countdown hentry (some 12) hsplit
  exact ⟨g, _, v, _, s, s', hg, hentry, hsplit, List.length_take_of_le hlen.le,
    congrArg Prod.fst hnode, congrArg Prod.snd hnode, hrun⟩

end Dataflow.Propagation
