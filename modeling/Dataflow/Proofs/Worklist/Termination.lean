import Dataflow.Proofs.Worklist.Invariant
import Dataflow.Proofs.Worklist.Monotone

/-!
# Runs end

The fact before a node only rises, and once a node was visited the fact after it changes only if the
fact before it rose. So a node changes at most once more than the fact before it can rise, whatever
the tables were at the start, and each change makes at most its successors wait.
-/

namespace Dataflow

theorem total_map_le {α : Type} {f h : α → Nat} {l : List α} (hle : ∀ a ∈ l, f a ≤ h a) :
    total (l.map f) ≤ total (l.map h) := by
  induction l with
  | nil => exact Nat.le_refl 0
  | cons a l ih =>
      exact Nat.add_le_add (hle a List.mem_cons_self) (ih fun b hb => hle b (List.mem_cons_of_mem a hb))

theorem total_map_add_le {α : Type} {f h : α → Nat} {k : Nat} {a : α} {l : List α}
    (hle : ∀ b ∈ l, f b ≤ h b) (ha : a ∈ l) (hk : f a + k ≤ h a) :
    total (l.map f) + k ≤ total (l.map h) := by
  induction l with
  | nil => cases ha
  | cons b l ih =>
      have hb := hle b List.mem_cons_self
      have hl : ∀ c ∈ l, f c ≤ h c := fun c hc => hle c (List.mem_cons_of_mem b hc)
      change f b + total (l.map f) + k ≤ h b + total (l.map h)
      rcases List.mem_cons.1 ha with rfl | ha
      · have htotal := total_map_le hl
        omega
      · have htotal := ih hl ha
        omega

variable {N F : Type} [DecidableEq N] [Preorder F]

/-- A rank that rises with every fact of a run and never passes `height`. The facts of a run are among
those that `ok` picks out. -/
structure Problem.FiniteHeight (p : Problem N F) (g : Graph N) (ok : F → Prop) (rank : F → Nat)
    (height : Nat) : Prop where
  meet_ok : ∀ {f f'}, ok f → ok f' → ok (p.meet f f')
  transfer_ok : ∀ {n f o}, n ∈ g.nodes → ok f → ok o → ok (p.transfer n f o).1
  rank_le : ∀ f, rank f ≤ height
  rank_mono : ∀ {f f'}, f ≤ f' → rank f ≤ rank f'
  le_of_rank_le : ∀ {f f'}, ok f' → f ≤ f' → rank f' ≤ rank f → f' ≤ f

theorem Problem.FiniteHeight.keeps {p : Problem N F} {g : Graph N} {ok : F → Prop} {rank : F → Nat}
    {height : Nat} (hh : p.FiniteHeight g ok rank height) : p.Keeps g ok :=
  ⟨hh.meet_ok, hh.transfer_ok⟩

namespace Worklist

open Classical in
/-- How often the fact after a node can still change. -/
noncomputable def budget (p : Problem N F) (rank : F → Nat) (height : Nat) (t : Facts N F) (n : N) :
    Nat :=
  (if Settled p t n then 0 else 1) + (height - rank (t.before n))

/-- How many visits are still possible: one for each node that waits, and for each possible change one
for each successor. -/
noncomputable def potential (p : Problem N F) (g : Graph N) (rank : F → Nat) (height : Nat)
    (t : Facts N F) (queue : List N) : Nat :=
  queue.length + total (g.nodes.map fun n => budget p rank height t n * (g.succs n).length)

variable {p : Problem N F} {g : Graph N} {t : Facts N F} {n : N} {rest : List N} {ok : F → Prop}
  {rank : F → Nat} {height : Nat}

theorem budget_visit_self (hp : p.Monotone) :
    budget p rank height (visit p g t n) n = height - rank (met p g t n) := by
  rw [budget, if_pos (settled_visit hp), before_visit_self, Nat.zero_add]

theorem budget_visit_le (hp : p.Monotone) (hh : p.FiniteHeight g ok rank height) (m : N) :
    budget p rank height (visit p g t n) m ≤ budget p rank height t m := by
  by_cases hmn : m = n
  · subst hmn
    have hrank := hh.rank_mono (before_le_met (g := g) (t := t) (n := m) hp)
    rw [budget_visit_self hp, budget]
    omega
  · rw [budget, budget, Settled, Settled, before_visit_of_ne hmn, after_visit_of_ne hmn]

theorem budget_visit_lt (hp : p.Monotone) (hh : p.FiniteHeight g ok rank height) (hok : AllOk g ok t)
    (hn : n ∈ g.nodes) (hchanged : (result p g t n).2 = true) :
    budget p rank height (visit p g t n) n + 1 ≤ budget p rank height t n := by
  have hrank := hh.rank_mono (before_le_met (g := g) (t := t) (n := n) hp)
  have hheight := hh.rank_le (met p g t n)
  rw [budget_visit_self hp, budget]
  by_cases hset : Settled p t n
  -- a settled node changes only if the fact before it rose
  · have hlt : rank (t.before n) < rank (met p g t n) := by
      by_contra h
      have hle : met p g t n ≤ t.before n :=
        hh.le_of_rank_le (hok.met hh.keeps hn) (before_le_met hp) (Nat.not_lt.1 h)
      have hsame : AntisymmRel (· ≤ ·) (t.after n) (result p g t n).1 :=
        ⟨hset.1.trans (hp.transfer_le n _ _ (before_le_met hp)),
          (hp.transfer_le n _ _ hle).trans hset.2⟩
      have hunchanged : (result p g t n).2 = false := (hp.unchanged_iff n _ _).2 hsame
      rw [hunchanged] at hchanged
      cases hchanged
    rw [if_pos hset]
    omega
  · rw [if_neg hset]
    omega

theorem potential_visit_lt (hp : p.Monotone) (hh : p.FiniteHeight g ok rank height)
    (hok : AllOk g ok t) (hn : n ∈ g.nodes) :
    potential p g rank height (visit p g t n) (requeue p g t n rest) <
      potential p g rank height t (n :: rest) := by
  have hle : ∀ m ∈ g.nodes, budget p rank height (visit p g t n) m * (g.succs m).length ≤
      budget p rank height t m * (g.succs m).length := fun m _ =>
    Nat.mul_le_mul_right _ (budget_visit_le hp hh m)
  simp only [potential, requeue, List.length_cons]
  split
  · next hchanged =>
      have hn' : budget p rank height (visit p g t n) n * (g.succs n).length + (g.succs n).length ≤
          budget p rank height t n * (g.succs n).length := by
        rw [← Nat.succ_mul]
        exact Nat.mul_le_mul_right _ (budget_visit_lt hp hh hok hn hchanged)
      have htotal := total_map_add_le hle hn hn'
      rw [List.length_append]
      omega
  · have htotal := total_map_add_le (k := 0) hle hn (hle n hn)
    omega

theorem Visits.length_le_height (hp : p.Monotone) (hh : p.FiniteHeight g ok rank height)
    {s s' : State N F} {vs : List (Visit N F)} (h : Visits p g s vs s') (hs : s.Holds g t)
    (hok : AllOk g ok t) :
    vs.length ≤ s.queue.length +
      total (g.nodes.map fun n => (1 + height) * (g.succs n).length) := by
  have hlen := h.length_le (fun t _ => AllOk g ok t) (potential p g rank height)
    (fun _ _ _ hn hi => hi.visit hh.keeps hn) (fun _ _ _ hn hi => potential_visit_lt hp hh hi hn) hs hok
  refine hlen.trans (Nat.add_le_add_left ?_ _)
  have hbudget : ∀ n, budget p rank height t n ≤ 1 + height := by
    intro n
    simp only [budget]
    split <;> omega
  exact total_map_le fun n _ => Nat.mul_le_mul_right _ (hbudget n)

end Worklist

end Dataflow
