import Dataflow.Proofs.Propagation.Monotone
import Dataflow.Proofs.Worklist.Frame

/-!
# The entry

A run starts with the boundary fact after the entry and leaves it there as long as the entry does not
wait. Where edges enter the entry it may come to wait, and a visit then replaces the boundary fact by what
came back along these edges.
-/

namespace Dataflow.Propagation

open Worklist

variable {m : Method} {g : Graph Node} {t t' : Facts Node Env} {n : Node} {env : Env}

theorem boundary_le_iff :
    boundary m ≤ env ↔ ∀ x ∈ m.params, x.tracked = true → env.get x = .nac := by
  constructor
  · intro h x hx htracked
    have hle := h x
    rwa [get_boundary, if_pos ⟨hx, htracked⟩, Value.nac_le] at hle
  · intro h x
    rw [get_boundary]
    split
    · next hx => exact (h x hx.1 hx.2).ge
    · exact Value.undef_le _

theorem get_after_of_settled (h : Settled (problem m) t n) (x : Var) :
    (t.after n).get x = (flow n (t.before n)).get x :=
  Env.antisymm_iff.1 (h.trans (transfer_antisymm m n _ _)) x

/-- The node leaves every parameter that is followed at `nac`. -/
def KeepsParams (m : Method) (n : Node) (env : Env) : Prop :=
  ∀ x ∈ m.params, x.tracked = true → (flow n env).get x = .nac

theorem KeepsParams.mono {env' : Env} (h : KeepsParams m n env) (hle : env ≤ env') :
    KeepsParams m n env' := by
  intro x hx htracked
  have hx' := flow_mono n hle x
  rwa [h x hx htracked, Value.nac_le] at hx'

theorem boundary_le_iff_of_settled (h : Settled (problem m) t n) :
    boundary m ≤ t.after n ↔ KeepsParams m n (t.before n) := by
  simp only [boundary_le_iff, KeepsParams, get_after_of_settled h]

variable {vs : List (Visit Node Env)} {s s' : State Node Env}

/-- Once visited, an entry that has its boundary fact keeps it: what comes before it only rises. -/
theorem boundary_le_of_visits (h : Visits (problem m) g s vs s') (hs : s.Holds g t)
    (hset : Settled (problem m) t n) (hle : boundary m ≤ t.after n) :
    ∃ t', s'.solution.Holds g t' ∧ boundary m ≤ t'.after n := by
  obtain ⟨t', ht', htraces⟩ := h.traces (problem_monotone m) hs
  refine ⟨t', ht'.facts, ?_⟩
  by_cases hv : ∃ v ∈ vs, v.node = n
  · have hkeeps := (boundary_le_iff_of_settled hset).1 hle
    exact (boundary_le_iff_of_settled ((htraces n).visited hv)).2 (hkeeps.mono (htraces n).rises)
  · rw [((htraces n).unvisited fun v hv' hn => hv ⟨v, hv', hn⟩).after]
    exact hle

/-- In every state of every run from the start: after an entry that was not visited stands the boundary
fact itself, and after one that was visited stands what it makes of the fact before it. So the fact after
the entry is above the boundary exactly if the entry was not visited or leaves all parameters at `nac`; if
it is so after a visit, it stays so. Where no edge enters the entry, it is never visited. -/
theorem boundary_le_entry_iff
    (h : Visits (problem m) g ⟨startForward (problem m) g, seed g⟩ vs s) :
    ∃ t, s.solution.Holds g t ∧
      ((∀ v ∈ vs, v.node ≠ g.entry) → t.after g.entry = boundary m) ∧
      ((∃ v ∈ vs, v.node = g.entry) →
        ∀ x, (t.after g.entry).get x = (flow g.entry (t.before g.entry)).get x) ∧
      (boundary m ≤ t.after g.entry ↔
        (∀ v ∈ vs, v.node ≠ g.entry) ∨ KeepsParams m g.entry (t.before g.entry)) ∧
      ((∃ v ∈ vs, v.node = g.entry) → boundary m ≤ t.after g.entry →
        ∀ ws s', Visits (problem m) g s ws s' →
          ∃ t', s'.solution.Holds g t' ∧ boundary m ≤ t'.after g.entry) ∧
      ((∀ e ∈ g.edges, e.dst ≠ g.entry) → ∀ v ∈ vs, v.node ≠ g.entry) := by
  have hs : State.Holds ⟨startForward (problem m) g, seed g⟩ g (startFacts (problem m) g) :=
    holds_seed holds_startForward
  obtain ⟨t, ht, htraces⟩ := h.traces (problem_monotone m) hs
  have hunvisited : (∀ v ∈ vs, v.node ≠ g.entry) → t.after g.entry = boundary m := fun hv =>
    ((htraces g.entry).unvisited hv).after.trans after_startFacts_entry
  have hvisited := (htraces g.entry).visited
  refine ⟨t, ht.facts, hunvisited, fun hv => get_after_of_settled (hvisited hv), ⟨?_, ?_⟩, ?_, ?_⟩
  · intro hle
    by_cases hv : ∃ v ∈ vs, v.node = g.entry
    · exact .inr ((boundary_le_iff_of_settled (hvisited hv)).1 hle)
    · exact .inl fun v hv' hn => hv ⟨v, hv', hn⟩
  · rintro (hv | hkeeps)
    · exact (hunvisited hv).ge
    · by_cases hv : ∃ v ∈ vs, v.node = g.entry
      · exact (boundary_le_iff_of_settled (hvisited hv)).2 hkeeps
      · exact (hunvisited fun v hv' hn => hv ⟨v, hv', hn⟩).ge
  · exact fun hv hle ws s' hws => boundary_le_of_visits hws ht (hvisited hv) hle
  · exact fun hentry => h.ne_entry hentry hs fun hmem => (mem_seed.1 hmem).2 rfl

/-- Sets its parameter. -/
def reset : Method where
  name := "reset"
  params := [⟨"p", .prim .int⟩]
  locals := []
  body := [⟨0, .assign ⟨"p", .prim .int⟩ (.lit 5)⟩]

/-- The graph of the method with an edge from its statement back to the entry. -/
def resetLoop : Graph Node :=
  [⟨.entry, reset.nodeAt 0, .entry⟩, ⟨reset.nodeAt 0, .exit, .fallThrough⟩,
    ⟨reset.nodeAt 0, .entry, .fallThrough⟩].foldl Graph.addEdge reset.isolated

theorem boundary_le_entry_iff_reset :
    ∃ vs s t, Visits (problem reset) resetLoop ⟨startForward (problem reset) resetLoop, seed resetLoop⟩
        vs s ∧ (∃ v ∈ vs, v.node = resetLoop.entry) ∧ s.solution.Holds resetLoop t ∧
      (∀ x, (t.after resetLoop.entry).get x =
        (flow resetLoop.entry (t.before resetLoop.entry)).get x) ∧
      (boundary reset ≤ t.after resetLoop.entry ↔
        KeepsParams reset resetLoop.entry (t.before resetLoop.entry)) := by
  obtain ⟨s, hv, -⟩ := solve_visits (p := problem reset) (g := resetLoop) rfl none
  have hvisited : ∃ v ∈ (solve (problem reset) resetLoop none).visits, v.node = resetLoop.entry := by
    have hnode : resetLoop.entry ∈ (solve (problem reset) resetLoop none).visits.map (·.node) := by
      decide +kernel
    exact List.mem_map.1 hnode
  obtain ⟨t, ht, -, hflow, hiff, -⟩ := boundary_le_entry_iff hv
  refine ⟨_, s, t, hv, hvisited, ht, hflow hvisited, hiff.trans (or_iff_right ?_)⟩
  obtain ⟨v, hv, hn⟩ := hvisited
  exact fun h => h v hv hn

/-- The run ends with the parameter at five after the entry. -/
theorem reset_loses_boundary :
    let p : Var := ⟨"p", .prim .int⟩
    (boundary reset).get p = .nac ∧ (solve (problem reset) resetLoop none).error = none ∧
      ∃ s, Visits (problem reset) resetLoop ⟨startForward (problem reset) resetLoop, seed resetLoop⟩
        (solve (problem reset) resetLoop none).visits s ∧
        (s.solution.outs.get? resetLoop.entry).map (·.get p) = some (.const 5) := by
  intro p
  obtain ⟨s, hv, -, houts⟩ := solve_visits (p := problem reset) (g := resetLoop) rfl none
  refine ⟨by decide +kernel, by decide +kernel, s, hv, ?_⟩
  rw [← houts]
  decide +kernel

end Dataflow.Propagation
