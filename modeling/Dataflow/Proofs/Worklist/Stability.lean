import Dataflow.Proofs.OrderedMap
import Dataflow.Proofs.Worklist.Limit
import Dataflow.Proofs.Worklist.Monotone

/-!
# Stable tables

When a run ends, every node but the entry is quiet, whatever the tables were at the start and also where
edges enter the entry. A visit of a quiet node changes nothing, so a second run visits every node but
the entry once and leaves the solution as it was.
-/

namespace Dataflow

variable {N F : Type} [DecidableEq N]

namespace Solution

variable {s : Solution N F} {n : N} {f : F}

theorem setIn_of_get? (h : s.ins.get? n = some f) : s.setIn n f = s := by
  simp only [setIn, OrderedMap.insert_of_get? h]

theorem setOut_of_get? (h : s.outs.get? n = some f) : s.setOut n f = s := by
  simp only [setOut, OrderedMap.insert_of_get? h]

end Solution

/-- Meeting in a fact that is below changes nothing, and a fact that does not count as changed is kept. -/
structure Problem.Keeping [Preorder F] (p : Problem N F) : Prop where
  meet_eq_of_le : ∀ {f f'}, f ≤ f' → p.meet f f' = f'
  transfer_eq_of_unchanged : ∀ {n f o}, (p.transfer n f o).2 = false → (p.transfer n f o).1 = o

namespace Worklist

variable [Preorder F] {p : Problem N F} {g : Graph N} {t : Facts N F} {s : Solution N F}
  {c c' : State N F} {vs : List (Visit N F)} {n : N} {rest : List N}

/-! ## The end of a run -/

theorem Visits.quiet (hp : p.Monotone) (h : Visits p g c vs c') (hs : c.Holds g t)
    (hq : ∀ n ∈ g.nodes, n ≠ g.entry → n ∉ c.queue → Quiet p g t n) :
    ∃ t', c'.Holds g t' ∧ ∀ n ∈ g.nodes, n ≠ g.entry → n ∉ c'.queue → Quiet p g t' n :=
  h.invariant (fun t queue => ∀ n ∈ g.nodes, n ≠ g.entry → n ∉ queue → Quiet p g t n)
    (fun _ _ _ _ hi m hm hne => Quiet.visit hp (hi m hm hne)) hs hq

theorem resumeForward_quiet (hp : p.Monotone) (hs : s.Holds g t) (hb : Terminates p g s)
    {limit : Option Int} (herr : (resumeForward p g limit s).error = none) :
    ∃ t', (resumeForward p g limit s).solution.Holds g t' ∧
      ∀ n ∈ g.nodes, n ≠ g.entry → Quiet p g t' n := by
  rw [(resumeForward_eq_of_error hs hb herr).1]
  obtain ⟨vs, s', hv, hq, hwhole⟩ := resumeForward_none hs hb
  obtain ⟨t', ht', hquiet⟩ := hv.quiet hp (holds_seed hs) fun n hn hne hq =>
    absurd (mem_seed.2 ⟨hn, hne⟩) hq
  rw [hwhole]
  exact ⟨t', ht'.facts, fun n hn hne => hquiet n hn hne (by simp [hq])⟩

/-! ## Visits of quiet nodes -/

theorem Quiet.met_eq (hk : p.Keeping) (h : Quiet p g t n) : met p g t n = t.before n := by
  have hfold : ∀ l : List N, (∀ m ∈ l, t.after m ≤ t.before n) →
      l.foldl (fun f m => p.meet (t.after m) f) (t.before n) = t.before n := by
    intro l hl
    induction l with
    | nil => rfl
    | cons m l ih =>
        rw [List.foldl_cons, hk.meet_eq_of_le (hl m List.mem_cons_self)]
        exact ih fun k hk => hl k (List.mem_cons_of_mem m hk)
  exact hfold _ h.before

theorem Quiet.result_eq (hp : p.Monotone) (hk : p.Keeping) (h : Quiet p g t n) :
    result p g t n = (t.after n, false) := by
  have hunchanged : (result p g t n).2 = false := by
    rw [result, h.met_eq hk]
    exact (hp.unchanged_iff n _ _).2 h.after
  exact Prod.ext (hk.transfer_eq_of_unchanged hunchanged) hunchanged

theorem step_of_quiet (hp : p.Monotone) (hk : p.Keeping) (hs : c.Holds g t) (hq : c.queue = n :: rest)
    (h : Quiet p g t n) :
    step p g c = .next ⟨n, t.before n, t.after n, false⟩ { c with queue := rest } := by
  obtain ⟨hin, hout⟩ := hs.facts n (hs.queue n (hq ▸ List.mem_cons_self))
  have hresult := h.result_eq hp hk
  have hrequeue : requeue p g t n rest = rest := by simp [requeue, hresult]
  rw [step_eq_next hs hq, hrequeue, hresult, h.met_eq hk, Solution.setIn_of_get? hin,
    Solution.setOut_of_get? hout]

theorem visits_of_quiet (hp : p.Monotone) (hk : p.Keeping) (hs : c.Holds g t)
    (h : ∀ n ∈ c.queue, Quiet p g t n) :
    Visits p g c (c.queue.map fun n => ⟨n, t.before n, t.after n, false⟩) { c with queue := [] } := by
  obtain ⟨s, queue⟩ := c
  induction queue with
  | nil => exact .nil
  | cons n rest ih =>
      refine .cons (step_of_quiet hp hk hs rfl (h n List.mem_cons_self)) ?_
      refine ih ⟨hs.facts, fun m hm => hs.queue m (List.mem_cons_of_mem n hm)⟩ ?_
      exact fun m hm => h m (List.mem_cons_of_mem n hm)

theorem resumeForward_of_quiet (hp : p.Monotone) (hk : p.Keeping) (hs : s.Holds g t)
    (h : ∀ n ∈ g.nodes, n ≠ g.entry → Quiet p g t n) {limit : Option Int}
    (hlimit : ∀ M ∈ limit, (seed g).length ≤ M.toNat) :
    resumeForward p g limit s = ⟨{ s with iterations := (seed g).length },
      (seed g).map fun n => ⟨n, t.before n, t.after n, false⟩, none⟩ := by
  have hquiet : ∀ n ∈ seed g, Quiet p g t n := fun n hn => h n (mem_seed.1 hn).1 (mem_seed.1 hn).2
  have hmost : (seed g).length ≤ (limit.getD (visitBound p g s)).toNat := by
    cases limit with
    | none => exact Nat.le_add_right _ _
    | some M => exact hlimit M rfl
  have hrun : run p g (limit.getD (visitBound p g s)).toNat ⟨s, seed g⟩ =
      ⟨s, (seed g).map fun n => ⟨n, t.before n, t.after n, false⟩, .finished⟩ :=
    (visits_of_quiet hp hk (holds_seed hs) hquiet).run_of_le rfl (by rwa [List.length_map])
  simp only [resumeForward, hrun, List.length_map]

end Worklist

end Dataflow
