import Dataflow.Proofs.Worklist.Attempt
import Dataflow.Proofs.Worklist.Monotone

/-!
# Tables that only rise

The fact after a node is written anew by every visit. It rises all the same: it never passes what the node
makes of the fact before it, and that fact only grows.
-/

namespace Dataflow.Worklist

variable {N F : Type} [DecidableEq N] [Preorder F]

/-- The fact after the node is below what the node makes of the fact before it. -/
def Supported (p : Problem N F) (t : Facts N F) (n : N) : Prop :=
  t.after n ≤ (p.transfer n (t.before n) (t.after n)).1

/-- Tables that the visits of waiting nodes can only raise. -/
structure Ascending (p : Problem N F) (g : Graph N) (t : Facts N F) (queue : List N) : Prop where
  entry_notMem : g.entry ∉ queue
  supported : ∀ n ≠ g.entry, Supported p t n

variable {p : Problem N F} {g : Graph N} {t : Facts N F} {s s' : State N F} {vs : List (Visit N F)}
  {n m : N} {rest : List N}

theorem Supported.after_le_result (hp : p.Monotone) (h : Supported p t n) :
    t.after n ≤ (result p g t n).1 :=
  h.trans (hp.transfer_le n _ _ (before_le_met hp))

theorem Supported.below_visit (hp : p.Monotone) (h : Supported p t n) : t.Below g (visit p g t n) := by
  intro m _
  by_cases hmn : m = n
  · subst hmn
    rw [before_visit_self, after_visit_self]
    exact ⟨before_le_met hp, h.after_le_result hp⟩
  · rw [before_visit_of_ne hmn, after_visit_of_ne hmn]
    exact ⟨le_refl _, le_refl _⟩

theorem Supported.visit (hp : p.Monotone) (h : Supported p t m) : Supported p (visit p g t n) m := by
  by_cases hmn : m = n
  · subst hmn
    exact (settled_visit hp).1
  · rw [Supported, before_visit_of_ne hmn, after_visit_of_ne hmn]
    exact h

theorem ascending_start (hp : p.Monotone) : Ascending p g (startFacts p g) (seed g) where
  entry_notMem h := (mem_seed.1 h).2 rfl
  supported n hne := by
    rw [Supported, after_startFacts hne]
    exact hp.initial_le _

theorem Ascending.head_ne_entry (h : Ascending p g t (n :: rest)) : n ≠ g.entry :=
  fun hn => h.entry_notMem (hn ▸ List.mem_cons_self)

theorem Ascending.visit (hp : p.Monotone) (hentry : ∀ e ∈ g.edges, e.dst ≠ g.entry)
    (h : Ascending p g t (n :: rest)) : Ascending p g (visit p g t n) (requeue p g t n rest) where
  entry_notMem :=
    entry_notMem_requeue hentry fun hm => h.entry_notMem (List.mem_cons_of_mem n hm)
  supported m hm := (h.supported m hm).visit hp

theorem Visits.ascending (hp : p.Monotone) (hentry : ∀ e ∈ g.edges, e.dst ≠ g.entry)
    (h : Visits p g s vs s') (hs : s.Holds g t) (hi : Ascending p g t s.queue) :
    ∃ t', s'.Holds g t' ∧ Ascending p g t' s'.queue ∧ t.Below g t' := by
  refine h.invariant (fun t' queue => Ascending p g t' queue ∧ t.Below g t') ?_ hs
    ⟨hi, fun n _ => ⟨le_refl _, le_refl _⟩⟩
  intro t' n rest _ hi
  have hraised : t'.Below g (visit p g t' n) := (hi.1.supported n hi.1.head_ne_entry).below_visit hp
  exact ⟨hi.1.visit hp hentry, hi.2.trans hraised⟩

end Dataflow.Worklist
