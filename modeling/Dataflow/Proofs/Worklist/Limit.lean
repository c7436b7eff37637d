import Dataflow.Proofs.Worklist.Attempt

/-!
# Limits

A limit decides how many visits of a run are made and nothing else: one that the whole run fits in
leaves the run as it is, and a smaller one stops it after as many visits, with the facts of that moment.
That there is a limit the whole run fits in rests on the test for a change.
-/

namespace Dataflow.Worklist

variable {N F : Type} [DecidableEq N]

/-- The second attempt is the first up to its limit: it made as many visits as the limit allows, has the
facts that the first has at that moment, and fails. -/
structure Cuts (p : Problem N F) (g : Graph N) (s : Solution N F) (whole : Attempt N F) (limit : Int)
    (cut : Attempt N F) : Prop where
  error : cut.error = some (.nonConvergence limit)
  visits : cut.visits = whole.visits.take limit.toNat
  solution : ∃ s₁ s₂, Visits p g ⟨s, seed g⟩ (whole.visits.take limit.toNat) s₁ ∧
    Visits p g s₁ (whole.visits.drop limit.toNat) s₂ ∧ s₂.queue = [] ∧
    whole.solution = { s₂.solution with iterations := whole.visits.length } ∧
    cut.solution = { s₁.solution with iterations := limit.toNat }

variable {p : Problem N F} {g : Graph N} {t : Facts N F} {s : Solution N F} {c c' : State N F}
  {vs : List (Visit N F)} {k : Nat}

/-! ## Runs with a limit -/

theorem Visits.run_of_le (h : Visits p g c vs c') (hq : c'.queue = []) (hk : vs.length ≤ k) :
    run p g k c = ⟨c'.solution, vs, .finished⟩ := by
  induction h generalizing k with
  | nil => cases k with
    | zero => simp [run, hq]
    | succ k => simp [run, step, hq]
  | cons hstep _ ih => cases k with
    | zero => cases hk
    | succ k =>
        have hrun := ih hq (Nat.le_of_succ_le_succ hk)
        simp only [run, hstep, hrun]

theorem resumeForward_of_visits (h : Visits p g ⟨s, seed g⟩ vs c') (hq : c'.queue = [])
    (hb : Terminates p g s) :
    resumeForward p g none s = ⟨{ c'.solution with iterations := vs.length }, vs, none⟩ := by
  have hrun : run p g (visitBound p g s) ⟨s, seed g⟩ = ⟨c'.solution, vs, .finished⟩ :=
    h.run_of_le hq (hb _ _ h)
  simp only [resumeForward, Option.getD_none, Int.toNat_natCast, hrun]

theorem queue_ne_nil_of_step {v : Visit N F} (h : step p g c = .next v c') : c.queue ≠ [] := by
  intro hq
  simp [step, hq] at h

theorem Visits.run_of_lt (h : Visits p g c vs c') (hk : k < vs.length) :
    ∃ c₁, Visits p g c (vs.take k) c₁ ∧ Visits p g c₁ (vs.drop k) c' ∧
      run p g k c = ⟨c₁.solution, vs.take k, .exhausted⟩ := by
  induction h generalizing k with
  | nil => cases hk
  | @cons c c₀ c' v vs hstep hrest ih => cases k with
    | zero =>
        refine ⟨c, .nil, .cons hstep hrest, ?_⟩
        simp [run, queue_ne_nil_of_step hstep]
    | succ k =>
        obtain ⟨c₁, hfirst, hlast, hrun⟩ := ih (Nat.lt_of_succ_lt_succ hk)
        refine ⟨c₁, .cons hstep hfirst, hlast, ?_⟩
        simp only [run, hstep, hrun, List.take_succ_cons]

theorem length_le_requeue {n : N} {rest : List N} : rest.length ≤ (requeue p g t n rest).length := by
  unfold requeue
  split
  · rw [List.length_append]
    exact Nat.le_add_right _ _
  · exact Nat.le_refl _

theorem Visits.queue_length_le (h : Visits p g c vs c') (hs : c.Holds g t) :
    c.queue.length ≤ vs.length + c'.queue.length := by
  induction h generalizing t with
  | nil => exact Nat.le_add_left _ _
  | cons hstep _ ih =>
      obtain ⟨n, rest, hq, -, -, hs₁, hq₁⟩ := step_next hs hstep
      have hle := ih hs₁
      have hrest : rest.length ≤ (requeue p g t n rest).length := length_le_requeue
      rw [hq₁] at hle
      rw [hq, List.length_cons, List.length_cons]
      omega

/-! ## Attempts with a limit -/

theorem resumeForward_of_le (hs : s.Holds g t) (hb : Terminates p g s) {limit : Int}
    (h : (resumeForward p g none s).visits.length ≤ limit.toNat) :
    resumeForward p g (some limit) s = resumeForward p g none s := by
  obtain ⟨vs, s', hv, hq, hwhole⟩ := resumeForward_none hs hb
  rw [hwhole] at h
  rw [hwhole]
  simp only [resumeForward, Option.getD_some, hv.run_of_le hq h]

theorem resumeForward_of_lt (hs : s.Holds g t) (hb : Terminates p g s) {limit : Int}
    (h : limit.toNat < (resumeForward p g none s).visits.length) :
    Cuts p g s (resumeForward p g none s) limit (resumeForward p g (some limit) s) := by
  obtain ⟨vs, s', hv, hq, hwhole⟩ := resumeForward_none hs hb
  rw [hwhole] at h
  obtain ⟨s₁, hfirst, hlast, hrun⟩ := hv.run_of_lt h
  have hlen : (vs.take limit.toNat).length = limit.toNat := List.length_take_of_le (Nat.le_of_lt h)
  rw [hwhole]
  simp only [resumeForward, Option.getD_some, hrun, hlen]
  exact ⟨rfl, rfl, s₁, s', hfirst, hlast, hq, rfl, rfl⟩

theorem length_seed_le (hs : s.Holds g t) (hb : Terminates p g s) :
    (seed g).length ≤ (resumeForward p g none s).visits.length := by
  obtain ⟨vs, s', hv, hq, hwhole⟩ := resumeForward_none hs hb
  have hle := hv.queue_length_le (holds_seed hs)
  rw [hwhole]
  simpa [hq] using hle

theorem visits_pos (hs : s.Holds g t) (hb : Terminates p g s) (h : ∃ n ∈ g.nodes, n ≠ g.entry) :
    0 < (resumeForward p g none s).visits.length := by
  obtain ⟨n, hn⟩ := h
  exact Nat.lt_of_lt_of_le (List.length_pos_of_mem (mem_seed.2 hn)) (length_seed_le hs hb)

theorem visits_eq_nil (hs : s.Holds g t) (hb : Terminates p g s) (h : ∀ n ∈ g.nodes, n = g.entry) :
    (resumeForward p g none s).visits = [] := by
  obtain ⟨vs, s', hv, -, hwhole⟩ := resumeForward_none hs hb
  have hseed : seed g = [] := List.filter_eq_nil_iff.2 fun n hn => by simp [h n hn]
  rw [hwhole]
  cases hv with
  | nil => rfl
  | cons hstep _ => exact absurd hseed (queue_ne_nil_of_step hstep)

theorem resumeForward_eq_of_error (hs : s.Holds g t) (hb : Terminates p g s) {limit : Option Int}
    (h : (resumeForward p g limit s).error = none) :
    resumeForward p g limit s = resumeForward p g none s ∧
      ∀ M ∈ limit, (resumeForward p g none s).visits.length ≤ M.toNat := by
  cases limit with
  | none => exact ⟨rfl, nofun⟩
  | some M =>
      by_cases hM : (resumeForward p g none s).visits.length ≤ M.toNat
      · refine ⟨resumeForward_of_le hs hb hM, fun M' hM' => ?_⟩
        cases hM'
        exact hM
      · have hcut := (resumeForward_of_lt hs hb (Nat.lt_of_not_le hM)).error
        rw [h] at hcut
        cases hcut

/-! ## Limits without a test for a change -/

theorem Visits.queue_ne_nil_of_restless (h : Visits p.restless g c vs c') (hs : c.Holds g t)
    (hsucc : ∀ n ∈ g.nodes, g.succs n ≠ []) (hq : c.queue ≠ []) : c'.queue ≠ [] := by
  obtain ⟨t', -, hne⟩ := h.invariant (fun _ queue => queue ≠ []) (fun t n rest hn _ => by
    simp [requeue, result, Problem.restless, hsucc n hn]) hs hq
  exact hne

/-- Where every node has a successor, a run that takes every visit for a change reaches every limit: only the
test for a change ends a run there. -/
theorem resumeForward_restless (hs : s.Holds g t) (hsucc : ∀ n ∈ g.nodes, g.succs n ≠ [])
    (hnode : ∃ n ∈ g.nodes, n ≠ g.entry) (limit : Int) :
    (resumeForward p.restless g (some limit) s).error = some (.nonConvergence limit) := by
  obtain ⟨n, hn⟩ := hnode
  have hq : seed g ≠ [] := List.ne_nil_of_mem (mem_seed.2 hn)
  obtain ⟨s', hv, -, ⟨-, hend⟩ | ⟨hend, -⟩⟩ := run_of_holds (p := p.restless) limit.toNat (holds_seed hs)
  · exact absurd hend (hv.queue_ne_nil_of_restless (holds_seed hs) hsucc hq)
  · simp only [resumeForward, Option.getD_some, hend]

end Dataflow.Worklist
