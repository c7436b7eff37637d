import Dataflow.Proofs.Propagation.Solving
import Dataflow.Proofs.Worklist.Stability

/-!
# Limited and repeated runs of constant propagation

From any facts, a limit cuts the run without a limit exactly where it says. A run that ends leaves facts
that satisfy the equations of every node but the entry, and a run from there changes nothing.
-/

namespace Dataflow.Propagation

open Worklist

variable {m : Method} {g : Graph Node} {s : Solution Node Env} {t : Facts Node Env}

/-- Facts for `spin` in which the variable has a constant that does not fit 32 bits, except after the
entry. -/
def high : Solution Node Env :=
  startForward { problem countdown with
    initial := .ofList [(⟨"k", .prim .int⟩, .const 8589934592)], boundary := ∅ } spin

/-! ## Limits -/

/-- With a limit of `M` a run does the same as without one if that takes at most `M` visits, and is cut
otherwise; visits are needed exactly if there is a node besides the entry. -/
theorem resume_limit (m : Method) (hs : s.Holds g t) (M : Int) :
    let whole := resume (problem m) g none s
    let limited := resume (problem m) g (some M) s
    let visits := whole.visits.length
    whole.error = none ∧ whole.solution.iterations = visits ∧
      (visits ≤ M → limited = whole) ∧
      ((∃ n ∈ g.nodes, n ≠ g.entry) →
        0 < visits ∧ (M < visits → Cuts (problem m) g s whole M limited)) ∧
      ((∀ n ∈ g.nodes, n = g.entry) → visits = 0 ∧ limited = whole) := by
  intro whole limited visits
  have hb : Terminates (problem m) g s := terminates m hs
  have hfits : visits ≤ M.toNat → limited = whole := resumeForward_of_le hs hb
  have hcut : M.toNat < visits → Cuts (problem m) g s whole M limited := resumeForward_of_lt hs hb
  refine ⟨?_, ?_, fun hM => hfits (by omega), ?_, ?_⟩
  · obtain ⟨vs, s', -, -, hwhole⟩ := resumeForward_none hs hb
    exact congrArg Attempt.error hwhole
  · obtain ⟨vs, s', -, -, hwhole⟩ := resumeForward_none hs hb
    exact (congrArg (·.solution.iterations) hwhole).trans
      (congrArg (·.visits.length) hwhole).symm
  · intro hnode
    have hpos : 0 < visits := visits_pos hs hb hnode
    exact ⟨hpos, fun hM => hcut (by omega)⟩
  · intro hall
    have hzero : visits = 0 := congrArg List.length (visits_eq_nil hs hb hall)
    exact ⟨hzero, hfits (by omega)⟩

theorem resume_limit_spin :
    let whole := resume (problem countdown) spin none high
    (∃ t, high.Holds spin t) ∧ (∃ n ∈ spin.nodes, n ≠ spin.entry) ∧ whole.visits.length = 6 ∧
      resume (problem countdown) spin (some 6) high = whole ∧
      Cuts (problem countdown) spin high whole 5 (resume (problem countdown) spin (some 5) high) ∧
      Cuts (problem countdown) spin high whole (-2)
        (resume (problem countdown) spin (some (-2)) high) := by
  intro whole
  have hs : high.Holds spin _ := holds_startForward
  have hnode : ∃ n ∈ spin.nodes, n ≠ spin.entry := by decide
  have hlen : whole.visits.length = 6 := by decide +kernel
  obtain ⟨-, -, hfits, -⟩ := resume_limit countdown hs 6
  obtain ⟨-, -, -, hcut, -⟩ := resume_limit countdown hs 5
  obtain ⟨-, -, -, hcut', -⟩ := resume_limit countdown hs (-2)
  refine ⟨⟨_, hs⟩, hnode, hlen, hfits ?_, (hcut hnode).2 ?_, (hcut' hnode).2 ?_⟩
  · exact Int.ofNat_le.2 hlen.le
  · exact Int.ofNat_lt.2 (hlen.symm ▸ by decide)
  · exact Int.lt_of_lt_of_le (by decide) (Int.natCast_nonneg _)

/-- In the graph of the entry alone nothing waits. A run without a limit makes no visit there, which is more
than a negative limit allows, and yet that limit cuts nothing. -/
theorem resume_limit_alone :
    let alone : Graph Node := .start "alone" .entry .exit
    let s := startForward (problem countdown) alone
    let whole := resume (problem countdown) alone none s
    let limited := resume (problem countdown) alone (some (-1)) s
    (∃ t, s.Holds alone t) ∧ (-1 : Int) < whole.visits.length ∧ limited.error = none ∧
      ¬Cuts (problem countdown) alone s whole (-1) limited := by
  intro alone s whole limited
  have herror : limited.error = none := by decide +kernel
  refine ⟨⟨_, holds_startForward⟩, by decide, herror, fun h => ?_⟩
  rw [h.error] at herror
  cases herror

/-! ## Stable facts -/

theorem problem_keeping (m : Method) : (problem m).Keeping where
  meet_eq_of_le := Env.merge_of_le
  transfer_eq_of_unchanged := Env.assign_of_unchanged

/-- After a run that ends, the fact after every node but the entry is what the node makes of the fact
before it, and that is above the facts after the predecessors. A run from there, with the same limit or
any other that lets it visit these nodes once, visits them once and changes no fact. -/
theorem resume_stable (m : Method) (hs : s.Holds g t) {limit : Option Int}
    (herr : (resume (problem m) g limit s).error = none) :
    let ended := (resume (problem m) g limit s).solution
    (∃ t', ended.Holds g t' ∧ ∀ n ∈ g.nodes, n ≠ g.entry →
      (∀ x, (t'.after n).get x = (flow n (t'.before n)).get x) ∧
        ∀ k ∈ g.preds n, t'.after k ≤ t'.before n) ∧
      ∀ limit', limit' = limit ∨ (∀ M ∈ limit', (seed g).length ≤ M.toNat) →
        let again := resume (problem m) g limit' ended
        again.error = none ∧ again.visits.length = (seed g).length ∧
          again.solution = { ended with iterations := (seed g).length } := by
  intro ended
  have hb : Terminates (problem m) g s := terminates m hs
  obtain ⟨t', ht', hquiet⟩ := resumeForward_quiet (problem_monotone m) hs hb herr
  refine ⟨⟨t', ht', fun n hn hne => ?_⟩, fun limit' hlimit' => ?_⟩
  · have hq := hquiet n hn hne
    exact ⟨get_after_of_quiet hq, hq.before⟩
  · have henough : ∀ M ∈ limit', (seed g).length ≤ M.toNat := by
      rcases hlimit' with rfl | h
      · exact fun M hM => (length_seed_le hs hb).trans ((resumeForward_eq_of_error hs hb herr).2 M hM)
      · exact h
    have hagain : resume (problem m) g limit' ended = _ :=
      resumeForward_of_quiet (problem_monotone m) (problem_keeping m) ht' hquiet henough
    rw [hagain]
    exact ⟨rfl, List.length_map _, rfl⟩

theorem resume_stable_spin :
    let ended := (resume (problem countdown) spin (some 6) high).solution
    let again := resume (problem countdown) spin (some 6) ended
    (∃ t, high.Holds spin t) ∧ (resume (problem countdown) spin (some 6) high).error = none ∧
      (∃ t', ended.Holds spin t' ∧ ∀ n ∈ spin.nodes, n ≠ spin.entry →
        (∀ x, (t'.after n).get x = (flow n (t'.before n)).get x) ∧
          ∀ k ∈ spin.preds n, t'.after k ≤ t'.before n) ∧
      again.error = none ∧ again.solution = { ended with iterations := 1 } := by
  intro ended again
  have hs : high.Holds spin _ := holds_startForward
  have herr : (resume (problem countdown) spin (some 6) high).error = none := by decide +kernel
  obtain ⟨hfacts, hagain⟩ := resume_stable countdown hs herr
  obtain ⟨herr', -, hsame⟩ := hagain (some 6) (.inl rfl)
  exact ⟨⟨_, hs⟩, herr, hfacts, herr', hsame⟩

end Dataflow.Propagation
