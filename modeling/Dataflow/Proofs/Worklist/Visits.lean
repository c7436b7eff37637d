import Dataflow.Proofs.Graph.Neighbours
import Dataflow.Worklist
import Mathlib.Logic.Function.Basic

/-!
# Visits as updates of two tables

A solution with both facts at every node of a graph is two functions of nodes. Where a solution holds
them, a step of the worklist is a visit that updates both at one node, so it is never stuck, and a run
is a sequence of visits that ends because nothing waits or because its limit is reached.
-/

namespace Dataflow

variable {N F : Type} [DecidableEq N]

/-- A fact before and a fact after every node. -/
structure Facts (N F : Type) where
  before : N → F
  after : N → F

/-- The solution has these facts at the nodes of the graph. -/
def Solution.Holds (s : Solution N F) (g : Graph N) (t : Facts N F) : Prop :=
  ∀ n ∈ g.nodes, s.ins.get? n = some (t.before n) ∧ s.outs.get? n = some (t.after n)

namespace Worklist

/-! ## One visit -/

section

variable (p : Problem N F) (g : Graph N) (t : Facts N F) (n : N)

/-- The fact before a node after the facts of its predecessors are met into it. -/
def met : F := (g.preds n).foldl (fun f m => p.meet (t.after m) f) (t.before n)

/-- The fact after the node that this makes, and whether it counts as changed. -/
def result : F × Bool := p.transfer n (met p g t n) (t.after n)

/-- Both tables after the visit. -/
def visit : Facts N F where
  before := Function.update t.before n (met p g t n)
  after := Function.update t.after n (result p g t n).1

/-- What waits after the visit. -/
def requeue (rest : List N) : List N := if (result p g t n).2 then rest ++ g.succs n else rest

end

/-- The state has these facts, and only nodes of the graph wait. -/
structure State.Holds (s : State N F) (g : Graph N) (t : Facts N F) : Prop where
  facts : s.solution.Holds g t
  queue : ∀ n ∈ s.queue, n ∈ g.nodes

variable {p : Problem N F} {g : Graph N} {s s' : State N F} {t : Facts N F} {n m : N}
  {rest : List N}

@[simp] theorem before_visit_self : (visit p g t n).before n = met p g t n := Function.update_self ..

@[simp] theorem after_visit_self : (visit p g t n).after n = (result p g t n).1 :=
  Function.update_self ..

theorem before_visit_of_ne (h : m ≠ n) : (visit p g t n).before m = t.before m :=
  Function.update_of_ne h ..

theorem after_visit_of_ne (h : m ≠ n) : (visit p g t n).after m = t.after m :=
  Function.update_of_ne h ..

theorem mem_requeue_of_mem (h : m ∈ rest) : m ∈ requeue p g t n rest := by
  unfold requeue
  split
  · exact List.mem_append_left _ h
  · exact h

theorem entry_notMem_requeue (hentry : ∀ e ∈ g.edges, e.dst ≠ g.entry) (h : g.entry ∉ rest) :
    g.entry ∉ requeue p g t n rest := by
  unfold requeue
  split
  · rw [List.mem_append, not_or]
    refine ⟨h, fun hm => ?_⟩
    obtain ⟨e, he, -, hd⟩ := Graph.mem_succs.1 hm
    exact hentry e he hd
  · exact h

theorem meetAll_eq_foldl {facts : OrderedMap N F} {l : List N}
    (h : ∀ m ∈ l, facts.get? m = some (t.after m)) (f : F) :
    meetAll p facts f l = (l.foldl (fun f m => p.meet (t.after m) f) f, true) := by
  induction l generalizing f with
  | nil => rfl
  | cons m l ih =>
      simp only [meetAll, h m List.mem_cons_self, List.foldl_cons]
      exact ih (fun k hk => h k (List.mem_cons_of_mem m hk)) _

theorem step_eq_next (hs : s.Holds g t) (hq : s.queue = n :: rest) :
    step p g s = .next ⟨n, met p g t n, (result p g t n).1, (result p g t n).2⟩
      ⟨(s.solution.setIn n (met p g t n)).setOut n (result p g t n).1, requeue p g t n rest⟩ := by
  have hn : n ∈ g.nodes := hs.queue n (hq ▸ List.mem_cons_self)
  have hmet : meetAll p s.solution.outs (t.before n) (g.preds n) = (met p g t n, true) :=
    meetAll_eq_foldl (fun m hm => (hs.facts m (Graph.mem_nodes_of_mem_preds hm)).2) _
  have hout : (s.solution.setIn n (met p g t n)).outs.get? n = some (t.after n) := (hs.facts n hn).2
  simp only [step, hq, (hs.facts n hn).1, hmet, hout]
  rfl

theorem step_of_holds (hs : s.Holds g t) (hq : s.queue = n :: rest) :
    ∃ s', step p g s =
        .next ⟨n, met p g t n, (result p g t n).1, (result p g t n).2⟩ s' ∧
      s'.Holds g (visit p g t n) ∧ s'.queue = requeue p g t n rest := by
  refine ⟨_, step_eq_next hs hq, ⟨?_, ?_⟩, rfl⟩
  · intro m hm
    simp only [Solution.setIn, Solution.setOut, visit, OrderedMap.get?_insert, Function.update_apply]
    by_cases h : m = n
    · simp [h]
    · simpa [h, Ne.symm h] using hs.facts m hm
  · intro m hm
    have hrest : ∀ m ∈ rest, m ∈ g.nodes := fun m hm => hs.queue m (hq ▸ List.mem_cons_of_mem n hm)
    simp only [requeue] at hm
    split at hm
    · exact (List.mem_append.1 hm).elim (hrest m) Graph.mem_nodes_of_mem_succs
    · exact hrest m hm

theorem step_next {v : Visit N F} (hs : s.Holds g t) (h : step p g s = .next v s') :
    ∃ n rest, s.queue = n :: rest ∧ n ∈ g.nodes ∧
      v = ⟨n, met p g t n, (result p g t n).1, (result p g t n).2⟩ ∧
      s'.Holds g (visit p g t n) ∧ s'.queue = requeue p g t n rest := by
  cases hq : s.queue with
  | nil => simp [step, hq] at h
  | cons n rest =>
      obtain ⟨s₁, hstep, hs₁, hq₁⟩ := step_of_holds (p := p) hs hq
      obtain ⟨rfl, rfl⟩ := Step.next.inj (h.symm.trans hstep)
      exact ⟨n, rest, rfl, hs.queue n (hq ▸ List.mem_cons_self), rfl, hs₁, hq₁⟩

/-- A step writes the two facts of the node that it visits. -/
theorem step_writes {v : Visit N F} (hs : s.Holds g t) (h : step p g s = .next v s') :
    v.node ∈ g.nodes ∧ s'.solution = (s.solution.setIn v.node v.before).setOut v.node v.after := by
  cases hq : s.queue with
  | nil => simp [step, hq] at h
  | cons n rest =>
      obtain ⟨rfl, rfl⟩ := Step.next.inj (h.symm.trans (step_eq_next hs hq))
      exact ⟨hs.queue n (hq ▸ List.mem_cons_self), rfl⟩

/-! ## Many visits -/

/-- The visits that steps make from one state to another. -/
inductive Visits (p : Problem N F) (g : Graph N) :
    State N F → List (Visit N F) → State N F → Prop
  | nil {s : State N F} : Visits p g s [] s
  | cons {s s' s'' : State N F} {v : Visit N F} {vs : List (Visit N F)} :
      step p g s = .next v s' → Visits p g s' vs s'' → Visits p g s (v :: vs) s''

variable {vs : List (Visit N F)}

theorem Visits.invariant (I : Facts N F → List N → Prop)
    (hI : ∀ t n rest, n ∈ g.nodes → I t (n :: rest) → I (visit p g t n) (requeue p g t n rest))
    (h : Visits p g s vs s') (hs : s.Holds g t) (hi : I t s.queue) :
    ∃ t', s'.Holds g t' ∧ I t' s'.queue := by
  induction h generalizing t with
  | nil => exact ⟨t, hs, hi⟩
  | cons hstep _ ih =>
      obtain ⟨n, rest, hq, hn, -, hs₁, hq₁⟩ := step_next hs hstep
      exact ih hs₁ (hq₁ ▸ hI t n rest hn (hq ▸ hi))

theorem Visits.length_le (I : Facts N F → List N → Prop) (size : Facts N F → List N → Nat)
    (hI : ∀ t n rest, n ∈ g.nodes → I t (n :: rest) → I (visit p g t n) (requeue p g t n rest))
    (hsize : ∀ t n rest, n ∈ g.nodes → I t (n :: rest) →
      size (visit p g t n) (requeue p g t n rest) < size t (n :: rest))
    (h : Visits p g s vs s') (hs : s.Holds g t) (hi : I t s.queue) :
    vs.length ≤ size t s.queue := by
  induction h generalizing t with
  | nil => exact Nat.zero_le _
  | cons hstep _ ih =>
      obtain ⟨n, rest, hq, hn, -, hs₁, hq₁⟩ := step_next hs hstep
      have hlt := hsize t n rest hn (hq ▸ hi)
      have hlen := ih hs₁ (hq₁ ▸ hI t n rest hn (hq ▸ hi))
      rw [hq₁] at hlen
      rw [hq, List.length_cons]
      omega

theorem visits_append_iff {ws : List (Visit N F)} :
    Visits p g s (vs ++ ws) s' ↔ ∃ s₁, Visits p g s vs s₁ ∧ Visits p g s₁ ws s' := by
  constructor
  · intro h
    induction vs generalizing s with
    | nil => exact ⟨s, .nil, h⟩
    | cons v vs ih =>
        cases h with
        | cons hstep h =>
            obtain ⟨s₁, h₁, h₂⟩ := ih h
            exact ⟨s₁, .cons hstep h₁, h₂⟩
  · rintro ⟨s₁, h₁, h₂⟩
    induction h₁ with
    | nil => exact h₂
    | cons hstep _ ih => exact .cons hstep (ih h₂)

theorem Visits.append_one (h : Visits p g s vs s') (hs : s.Holds g t) (hq : s'.queue ≠ []) :
    ∃ v s'', Visits p g s (vs ++ [v]) s'' := by
  induction h generalizing t with
  | @nil s =>
      obtain ⟨n, rest, hq⟩ := List.exists_cons_of_ne_nil hq
      obtain ⟨s₁, hstep, -⟩ := step_of_holds (p := p) hs hq
      exact ⟨_, s₁, .cons hstep .nil⟩
  | cons hstep _ ih =>
      obtain ⟨n, rest, -, -, -, hs₁, -⟩ := step_next hs hstep
      obtain ⟨v, s'', hv⟩ := ih hs₁ hq
      exact ⟨v, s'', .cons hstep hv⟩

theorem run_of_holds (limit : Nat) (hs : s.Holds g t) :
    ∃ s', Visits p g s (run p g limit s).visits s' ∧ (run p g limit s).solution = s'.solution ∧
      ((run p g limit s).ending = .finished ∧ s'.queue = [] ∨
        (run p g limit s).ending = .exhausted ∧ s'.queue ≠ [] ∧
          (run p g limit s).visits.length = limit) := by
  induction limit generalizing s t with
  | zero =>
      refine ⟨s, .nil, rfl, ?_⟩
      cases hq : s.queue with
      | nil => simp [run, hq]
      | cons n rest => simp [run, hq]
  | succ limit ih =>
      cases hq : s.queue with
      | nil => exact ⟨s, by simp [run, step, hq, Visits.nil]⟩
      | cons n rest =>
          obtain ⟨s₁, hstep, hs₁, -⟩ := step_of_holds (p := p) hs hq
          obtain ⟨s', hvisits, hsol, hend⟩ := ih hs₁
          refine ⟨s', ?_, ?_, ?_⟩
          · simp only [run, hstep]; exact .cons hstep hvisits
          · simpa only [run, hstep] using hsol
          · simpa only [run, hstep, List.length_cons, Nat.succ_inj] using hend

end Worklist

end Dataflow
