import Dataflow.Proofs.Worklist.Visits
import Mathlib.Order.Antisymmetrization

/-!
# Visits of a monotone problem

Where facts are preordered and a problem respects the order, two things hold after every visit. A node
that does not wait satisfies its own equation and is above its predecessors. Facts below tables that no
visit can raise stay below them.
-/

namespace Dataflow

variable {N F : Type} [Preorder F]

/-- Every fact of the first tables is below that of the second. -/
def Facts.Below (g : Graph N) (t T : Facts N F) : Prop :=
  ∀ n ∈ g.nodes, t.before n ≤ T.before n ∧ t.after n ≤ T.after n

theorem Facts.Below.trans {g : Graph N} {t t' t'' : Facts N F} (h : t.Below g t') (h' : t'.Below g t'') :
    t.Below g t'' :=
  fun n hn => ⟨(h n hn).1.trans (h' n hn).1, (h n hn).2.trans (h' n hn).2⟩

variable [DecidableEq N]

/-- Facts start lowest, meet in the least fact above both, and pass a node in a way that keeps the
order and depends on the fact before it alone. A change is reported where the fact differs. -/
structure Problem.Monotone (p : Problem N F) : Prop where
  initial_le : ∀ f, p.initial ≤ f
  le_meet_left : ∀ f f', f ≤ p.meet f f'
  le_meet_right : ∀ f f', f' ≤ p.meet f f'
  meet_le : ∀ {f f' h}, f ≤ h → f' ≤ h → p.meet f f' ≤ h
  transfer_le : ∀ n {f f'} o o', f ≤ f' → (p.transfer n f o).1 ≤ (p.transfer n f' o').1
  unchanged_iff : ∀ n f o,
    (p.transfer n f o).2 = false ↔ AntisymmRel (· ≤ ·) o (p.transfer n f o).1

namespace Worklist

/-- Tables that no visit of a node other than the entry can raise. -/
structure Closed (p : Problem N F) (g : Graph N) (t : Facts N F) : Prop where
  edge : ∀ e ∈ g.edges, t.after e.src ≤ t.before e.dst
  node : ∀ n ∈ g.nodes, n ≠ g.entry → (p.transfer n (t.before n) (t.after n)).1 ≤ t.after n

/-- The fact after the node is what the node makes of the fact before it. -/
def Settled (p : Problem N F) (t : Facts N F) (n : N) : Prop :=
  AntisymmRel (· ≤ ·) (t.after n) (p.transfer n (t.before n) (t.after n)).1

/-- The node is settled and above its predecessors. -/
structure Quiet (p : Problem N F) (g : Graph N) (t : Facts N F) (n : N) : Prop where
  after : Settled p t n
  before : ∀ m ∈ g.preds n, t.after m ≤ t.before n

variable {p : Problem N F} {g : Graph N} {t T : Facts N F} {n m : N} {rest : List N}

/-! ## Meeting a list of facts -/

theorem le_foldl_meet (hp : p.Monotone) (e : N → F) (l : List N) (f : F) :
    f ≤ l.foldl (fun f m => p.meet (e m) f) f := by
  induction l generalizing f with
  | nil => exact le_refl f
  | cons m l ih => exact (hp.le_meet_right (e m) f).trans (ih _)

theorem mem_le_foldl_meet (hp : p.Monotone) (e : N → F) {l : List N} (h : m ∈ l) (f : F) :
    e m ≤ l.foldl (fun f m => p.meet (e m) f) f := by
  induction l generalizing f with
  | nil => cases h
  | cons k l ih =>
      rcases List.mem_cons.1 h with rfl | h
      · exact (hp.le_meet_left (e m) f).trans (le_foldl_meet hp e l _)
      · exact ih h _

theorem foldl_meet_le (hp : p.Monotone) {e : N → F} {l : List N} {f h : F} (hf : f ≤ h)
    (he : ∀ m ∈ l, e m ≤ h) : l.foldl (fun f m => p.meet (e m) f) f ≤ h := by
  induction l generalizing f with
  | nil => exact hf
  | cons m l ih =>
      exact ih (hp.meet_le (he m List.mem_cons_self) hf) fun k hk => he k (List.mem_cons_of_mem m hk)

theorem before_le_met (hp : p.Monotone) : t.before n ≤ met p g t n := le_foldl_meet hp _ _ _

theorem after_le_met (hp : p.Monotone) (h : m ∈ g.preds n) : t.after m ≤ met p g t n :=
  mem_le_foldl_meet hp t.after h _

/-! ## Quiet nodes -/

theorem after_visit_le (hp : p.Monotone) (hm : m ∈ g.succs n) (hq : m ∉ requeue p g t n rest) :
    (visit p g t n).after n ≤ t.after n := by
  have hres : (result p g t n).2 = false := by
    by_contra h
    rw [requeue, if_pos (by simpa using h)] at hq
    exact hq (List.mem_append_right rest hm)
  rw [after_visit_self]
  exact ((hp.unchanged_iff n _ _).1 hres).2

theorem settled_visit (hp : p.Monotone) : Settled p (visit p g t n) n := by
  rw [Settled, before_visit_self, after_visit_self]
  exact ⟨hp.transfer_le n _ _ (le_refl _), hp.transfer_le n _ _ (le_refl _)⟩

theorem Quiet.visit (hp : p.Monotone) (h : m ∉ n :: rest → Quiet p g t m)
    (hq : m ∉ requeue p g t n rest) : Quiet p g (visit p g t n) m := by
  by_cases hmn : m = n
  · subst hmn
    refine ⟨settled_visit hp, fun k hk => ?_⟩
    rw [before_visit_self]
    by_cases hkm : k = m
    · subst hkm
      exact (after_visit_le hp (Graph.mem_preds_iff_mem_succs.1 hk) hq).trans (after_le_met hp hk)
    · rw [after_visit_of_ne hkm]
      exact after_le_met hp hk
  · have hm := h fun h => (List.mem_cons.1 h).elim hmn fun h => hq (mem_requeue_of_mem h)
    refine ⟨?_, fun k hk => ?_⟩
    · rw [Settled, before_visit_of_ne hmn, after_visit_of_ne hmn]
      exact hm.after
    · rw [before_visit_of_ne hmn]
      by_cases hkn : k = n
      -- only a change after `n` could disturb `m`, and then `m` would wait
      · subst hkn
        exact (after_visit_le hp (Graph.mem_preds_iff_mem_succs.1 hk) hq).trans (hm.before k hk)
      · rw [after_visit_of_ne hkn]
        exact hm.before k hk

/-! ## Staying below -/

theorem Closed.after_le_before (hT : Closed p g T) (h : m ∈ g.preds n) : T.after m ≤ T.before n := by
  obtain ⟨e, he, rfl, rfl⟩ := Graph.mem_preds.1 h
  exact hT.edge e he

theorem Closed.visit_below (hp : p.Monotone) (hT : Closed p g T) (h : t.Below g T)
    (hn : n ∈ g.nodes) (hentry : n ≠ g.entry) : (visit p g t n).Below g T := by
  have hmet : met p g t n ≤ T.before n :=
    foldl_meet_le hp (h n hn).1 fun m hm =>
      (h m (Graph.mem_nodes_of_mem_preds hm)).2.trans (hT.after_le_before hm)
  intro m hm
  by_cases hmn : m = n
  · subst hmn
    rw [before_visit_self, after_visit_self]
    exact ⟨hmet, (hp.transfer_le m _ _ hmet).trans (hT.node m hn hentry)⟩
  · rw [before_visit_of_ne hmn, after_visit_of_ne hmn]
    exact h m hm

end Worklist

end Dataflow
