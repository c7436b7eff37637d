import Dataflow.Proofs.Worklist.Visits

/-!
# Attempts as sequences of visits

An attempt on a solution that has every fact is the visits it made: either nothing waits after them or
there are as many as the limit allows. Without a limit the queue empties wherever the bound on the
number of visits is one.
-/

namespace Dataflow.Worklist

variable {N F : Type} [DecidableEq N]

/-- No sequence of visits is longer than the bound. -/
def Terminates (p : Problem N F) (g : Graph N) (s : Solution N F) : Prop :=
  ∀ vs s', Visits p g ⟨s, seed g⟩ vs s' → vs.length ≤ visitBound p g s

/-- The tables that a run starts from. -/
def startFacts (p : Problem N F) (g : Graph N) : Facts N F where
  before _ := p.initial
  after n := if n = g.entry then p.boundary else p.initial

variable {p : Problem N F} {g : Graph N} {t : Facts N F} {s : Solution N F} {n : N}

theorem mem_seed {n : N} : n ∈ seed g ↔ n ∈ g.nodes ∧ n ≠ g.entry := by
  rw [seed, List.mem_filter, decide_eq_true_eq]

theorem holds_seed (hs : s.Holds g t) : State.Holds ⟨s, seed g⟩ g t :=
  ⟨hs, fun _ hn => (mem_seed.1 hn).1⟩

theorem resumeForward_of_holds (limit : Option Int) (hs : s.Holds g t) :
    ∃ s', Visits p g ⟨s, seed g⟩ (resumeForward p g limit s).visits s' ∧
      (resumeForward p g limit s).solution =
        { s'.solution with iterations := (resumeForward p g limit s).visits.length } ∧
      ((resumeForward p g limit s).error = none ∧ s'.queue = [] ∨
        s'.queue ≠ [] ∧ (resumeForward p g limit s).visits.length =
          (limit.getD (visitBound p g s)).toNat) := by
  obtain ⟨s', hv, hsol, ⟨hend, hq⟩ | ⟨hend, hq, hlen⟩⟩ :=
    run_of_holds (p := p) (limit.getD (visitBound p g s)).toNat (holds_seed hs)
  · refine ⟨s', ?_⟩
    simp only [resumeForward, hend, hsol, true_and]
    exact ⟨hv, .inl hq⟩
  · refine ⟨s', ?_⟩
    simp only [resumeForward, hend, hsol, true_and]
    exact ⟨hv, .inr ⟨hq, hlen⟩⟩

theorem resumeForward_none (hs : s.Holds g t) (hb : Terminates p g s) :
    ∃ vs s', Visits p g ⟨s, seed g⟩ vs s' ∧ s'.queue = [] ∧
      resumeForward p g none s = ⟨{ s'.solution with iterations := vs.length }, vs, none⟩ := by
  obtain ⟨s', hv, hsol, ⟨herr, hq⟩ | ⟨hq, hlen⟩⟩ := resumeForward_of_holds (p := p) none hs
  · refine ⟨_, s', hv, hq, ?_⟩
    rw [← hsol, ← herr]
  · obtain ⟨v, s'', hv'⟩ := hv.append_one (holds_seed hs) hq
    have hle := hb _ _ hv'
    rw [List.length_append, hlen] at hle
    exact absurd hle (by simp)

theorem after_startFacts_entry : (startFacts p g).after g.entry = p.boundary := if_pos rfl

theorem after_startFacts (hne : n ≠ g.entry) : (startFacts p g).after n = p.initial := if_neg hne

theorem holds_startForward : (startForward p g).Holds g (startFacts p g) := by
  have hfold : ∀ (l : List N) (s : Solution N F) (n : N), n ∈ l ∨
      s.ins.get? n = some ((startFacts p g).before n) ∧
        s.outs.get? n = some ((startFacts p g).after n) →
      let s' := l.foldl (fun s n =>
        (s.setIn n p.initial).setOut n (if n = g.entry then p.boundary else p.initial)) s
      s'.ins.get? n = some ((startFacts p g).before n) ∧
        s'.outs.get? n = some ((startFacts p g).after n) := by
    intro l
    induction l with
    | nil => exact fun s n h => h.resolve_left List.not_mem_nil
    | cons m l ih =>
        intro s n h
        refine ih _ n ?_
        by_cases hmn : m = n
        · subst hmn
          exact .inr (by simp [Solution.setIn, Solution.setOut, OrderedMap.get?_insert, startFacts])
        · rcases h with h | h
          · exact .inl ((List.mem_cons.1 h).resolve_left (Ne.symm hmn))
          · exact .inr (by
              simpa [Solution.setIn, Solution.setOut, OrderedMap.get?_insert, hmn] using h)
  exact fun n hn => hfold g.nodes ∅ n (.inl hn)

theorem solve_of_forward (hf : p.direction = .forward) (limit : Option Int) :
    solve p g limit =
      let a := resumeForward p g limit (startForward p g)
      if a.error.isNone then { a with solution := { a.solution with converged := true } } else a := by
  simp only [solve, start, resume, hf]

theorem holds_solve (hf : p.direction = .forward) (limit : Option Int)
    (h : (resumeForward p g limit (startForward p g)).solution.Holds g t) :
    (solve p g limit).solution.Holds g t := by
  rw [solve_of_forward hf]
  simp only
  split
  · exact h
  · exact h

/-- The facts that solving leaves are those of the state after its visits. -/
theorem solve_visits (hf : p.direction = .forward) (limit : Option Int) :
    ∃ s', Visits p g ⟨startForward p g, seed g⟩ (solve p g limit).visits s' ∧
      (solve p g limit).solution.ins = s'.solution.ins ∧
      (solve p g limit).solution.outs = s'.solution.outs := by
  obtain ⟨s', hv, hsol, -⟩ := resumeForward_of_holds (p := p) limit holds_startForward
  refine ⟨s', ?_⟩
  rw [solve_of_forward hf]
  simp only
  split
  · exact ⟨hv, by rw [hsol], by rw [hsol]⟩
  · exact ⟨hv, by rw [hsol], by rw [hsol]⟩

end Dataflow.Worklist
