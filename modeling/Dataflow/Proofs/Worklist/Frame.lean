import Dataflow.Proofs.Worklist.Attempt
import Dataflow.Proofs.Worklist.Monotone

/-!
# What a run leaves alone

A run changes the facts of the nodes that it visits and of no others. A visited node is settled from its
last visit on, and the fact before a node only rises.
-/

namespace Dataflow.Worklist

variable {N F : Type} [DecidableEq N] {p : Problem N F} {g : Graph N} {t t' : Facts N F} {n m : N}

/-- Where no edge enters the entry, no visit is one of the entry. -/
theorem Visits.ne_entry (hentry : ∀ e ∈ g.edges, e.dst ≠ g.entry) {s s' : State N F}
    {vs : List (Visit N F)} (h : Visits p g s vs s') (hs : s.Holds g t) (hq : g.entry ∉ s.queue) :
    ∀ v ∈ vs, v.node ≠ g.entry := by
  induction h generalizing t with
  | nil => exact nofun
  | cons hstep _ ih =>
      obtain ⟨n, rest, hqueue, hn, rfl, hs₁, hq₁⟩ := step_next hs hstep
      rw [hqueue, List.mem_cons, not_or] at hq
      intro v hv
      rcases List.mem_cons.1 hv with rfl | hv
      · exact fun h => hq.1 h.symm
      · exact ih hs₁ (hq₁ ▸ entry_notMem_requeue hentry hq.2) v hv

/-! ## The facts of one node -/

/-- The same facts at the node. -/
structure SameAt (n : N) (t t' : Facts N F) : Prop where
  before : t'.before n = t.before n
  after : t'.after n = t.after n

theorem sameAt_visit (h : m ≠ n) : SameAt m t (visit p g t n) :=
  ⟨before_visit_of_ne h, after_visit_of_ne h⟩

variable [Preorder F]

theorem SameAt.settled (h : SameAt n t t') (hs : Settled p t n) : Settled p t' n := by
  rw [Settled, h.before, h.after]
  exact hs

theorem before_le_visit (hp : p.Monotone) (m : N) : t.before m ≤ (visit p g t n).before m := by
  by_cases h : m = n
  · subst h
    rw [before_visit_self]
    exact before_le_met hp
  · exact (before_visit_of_ne h).ge

/-- What visits make of the facts at one node. -/
structure Traces (p : Problem N F) (vs : List (Visit N F)) (t t' : Facts N F) (n : N) : Prop where
  unvisited : (∀ v ∈ vs, v.node ≠ n) → SameAt n t t'
  visited : (∃ v ∈ vs, v.node = n) → Settled p t' n
  rises : t.before n ≤ t'.before n

theorem Traces.cons (hp : p.Monotone) {v : Visit N F} {vs : List (Visit N F)}
    (h : Traces p vs (visit p g t v.node) t' n) : Traces p (v :: vs) t t' n where
  unvisited hv := by
    have hsame := h.unvisited fun w hw => hv w (List.mem_cons_of_mem v hw)
    have hhead : SameAt n t (visit p g t v.node) := sameAt_visit (hv v List.mem_cons_self).symm
    exact ⟨hsame.before.trans hhead.before, hsame.after.trans hhead.after⟩
  visited hv := by
    by_cases hlater : ∃ w ∈ vs, w.node = n
    · exact h.visited hlater
    · have hsame := h.unvisited fun w hw hn => hlater ⟨w, hw, hn⟩
      obtain ⟨w, hw, rfl⟩ := hv
      rcases List.mem_cons.1 hw with rfl | hw
      · exact hsame.settled (settled_visit hp)
      · exact absurd ⟨w, hw, rfl⟩ hlater
  rises := (before_le_visit hp n).trans h.rises

theorem Visits.traces (hp : p.Monotone) {s s' : State N F} {vs : List (Visit N F)}
    (h : Visits p g s vs s') (hs : s.Holds g t) :
    ∃ t', s'.Holds g t' ∧ ∀ n, Traces p vs t t' n := by
  induction h generalizing t with
  | nil => exact ⟨t, hs, fun n => ⟨fun _ => ⟨rfl, rfl⟩, fun ⟨_, hv, _⟩ => (nomatch hv), le_refl _⟩⟩
  | cons hstep _ ih =>
      obtain ⟨n, _, _, _, rfl, hs₁, _⟩ := step_next hs hstep
      obtain ⟨t', ht', htraces⟩ := ih hs₁
      exact ⟨t', ht', fun m => (htraces m).cons hp⟩

end Dataflow.Worklist
