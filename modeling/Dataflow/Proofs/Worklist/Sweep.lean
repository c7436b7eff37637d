import Dataflow.Proofs.Graph.Forward
import Dataflow.Proofs.Worklist.Frame
import Dataflow.Proofs.Worklist.LeastSolution
import Dataflow.Proofs.Worklist.Stability

/-!
# One pass over a graph without backward edges

A run begins by visiting every node but the entry once, in order. Where every edge leads to a later node
these first visits find the solution, and the visits that they cause change nothing.
-/

namespace Dataflow.Worklist

variable {N F : Type} [DecidableEq N]

section

variable (p : Problem N F) (g : Graph N) (t : Facts N F)

/-- The meet of what the predecessors leave before the node, and after it what the node makes of that. -/
def pass (n : N) : Facts N F where
  before := Function.update t.before n (inflow p g t n)
  after := Function.update t.after n (p.transfer n (inflow p g t n) p.initial).1

/-- The tables after one pass over all nodes but the entry, in their order. -/
def sweep : Facts N F := (seed g).foldl (pass p g) (startFacts p g)

/-- The nodes that wait because of the first visit of the node. -/
def woken (n : N) : List N := if (p.transfer n (t.before n) p.initial).2 then g.succs n else []

/-- Both facts of the node are those before any visit. -/
structure Fresh (n : N) : Prop where
  before : t.before n = p.initial
  after : t.after n = p.initial

end

variable {p : Problem N F} {g : Graph N} {t t' : Facts N F} {s : State N F} {n m : N} {l rest : List N}

/-! ## First visits -/

theorem before_pass_self : (pass p g t n).before n = inflow p g t n := Function.update_self ..

theorem after_pass_self : (pass p g t n).after n = (p.transfer n (inflow p g t n) p.initial).1 :=
  Function.update_self ..

theorem sameAt_pass (h : m ≠ n) : SameAt m t (pass p g t n) :=
  ⟨Function.update_of_ne h .., Function.update_of_ne h ..⟩

theorem Fresh.pass_of_ne (h : Fresh p t m) (hne : m ≠ n) : Fresh p (pass p g t n) m :=
  ⟨(sameAt_pass hne).before.trans h.before, (sameAt_pass hne).after.trans h.after⟩

theorem Fresh.met_eq (h : Fresh p t n) : met p g t n = inflow p g t n := by rw [met, h.before, inflow]

theorem Fresh.visit_eq (h : Fresh p t n) : visit p g t n = pass p g t n := by
  rw [visit, pass, result, h.met_eq, h.after]

theorem Fresh.requeue_eq (h : Fresh p t n) :
    requeue p g t n rest = rest ++ woken p g (pass p g t n) n := by
  rw [requeue, woken, before_pass_self, result, h.met_eq, h.after]
  split
  · rfl
  · rw [List.append_nil]

theorem sameAt_foldl_pass (h : n ∉ l) : SameAt n t (l.foldl (pass p g) t) := by
  induction l generalizing t with
  | nil => exact ⟨rfl, rfl⟩
  | cons k l ih =>
      rw [List.mem_cons, not_or] at h
      obtain ⟨hbefore, hafter⟩ := ih (t := pass p g t k) h.2
      have hhead : SameAt n t (pass p g t k) := sameAt_pass h.1
      exact ⟨hbefore.trans hhead.before, hafter.trans hhead.after⟩

theorem woken_congr (h : SameAt n t t') : woken p g t' n = woken p g t n := by
  rw [woken, woken, h.before]

theorem length_flatMap_woken (l : List N) :
    (l.flatMap (woken p g t)).length =
      total ((l.filter fun n => (p.transfer n (t.before n) p.initial).2).map fun n => (g.succs n).length) := by
  induction l with
  | nil => rfl
  | cons n l ih =>
      rw [List.flatMap_cons, List.length_append, ih, woken]
      cases hflag : (p.transfer n (t.before n) p.initial).2 with
      | false =>
          rw [List.filter_cons_of_neg (by simp [hflag]), if_neg Bool.false_ne_true, List.length_nil, Nat.zero_add]
      | true =>
          rw [List.filter_cons_of_pos (by simp [hflag]), if_pos rfl]
          rfl

/-- As long as the nodes at the head of the queue were not visited, the run passes over them. -/
theorem visits_pass (hl : l.Nodup) (hfresh : ∀ n ∈ l, Fresh p t n) (hs : s.Holds g t)
    (hq : s.queue = l ++ rest) :
    ∃ vs s', Visits p g s vs s' ∧ s'.Holds g (l.foldl (pass p g) t) ∧ vs.length = l.length ∧
      s'.queue = rest ++ l.flatMap (woken p g (l.foldl (pass p g) t)) := by
  induction l generalizing s t rest with
  | nil => exact ⟨[], s, .nil, hs, rfl, by simpa using hq⟩
  | cons n l ih =>
      obtain ⟨hn, hl⟩ := List.nodup_cons.1 hl
      have hhead := hfresh n List.mem_cons_self
      rw [List.cons_append] at hq
      obtain ⟨s₁, hstep, hs₁, hq₁⟩ := step_of_holds (p := p) hs hq
      rw [hhead.visit_eq] at hs₁
      rw [hhead.requeue_eq, List.append_assoc] at hq₁
      have htail : ∀ k ∈ l, Fresh p (pass p g t n) k := fun k hk =>
        (hfresh k (List.mem_cons_of_mem n hk)).pass_of_ne fun h => hn (h ▸ hk)
      obtain ⟨vs, s', hvisits, hs', hlen, hq'⟩ := ih hl htail hs₁ hq₁
      refine ⟨_, s', .cons hstep hvisits, hs', congrArg (· + 1) hlen, ?_⟩
      -- no later node of the list touches `n`, so what its visit woke can be read off the last tables
      have hsame : SameAt n (pass p g t n) (l.foldl (pass p g) (pass p g t n)) := sameAt_foldl_pass hn
      rw [hq', List.flatMap_cons, List.append_assoc, List.foldl_cons, woken_congr hsame]

theorem nodup_seed (g : Graph N) : (seed g).Nodup := g.nodup.filter _

theorem visits_sweep (hs : s.Holds g (startFacts p g)) (hq : s.queue = seed g) :
    ∃ vs s', Visits p g s vs s' ∧ s'.Holds g (sweep p g) ∧ vs.length = (seed g).length ∧
      s'.queue = (seed g).flatMap (woken p g (sweep p g)) := by
  have hfresh : ∀ n ∈ seed g, Fresh p (startFacts p g) n :=
    fun n hn => ⟨rfl, after_startFacts (mem_seed.1 hn).2⟩
  exact visits_pass (nodup_seed g) hfresh hs (hq.trans (List.append_nil _).symm)

/-! ## Forward graphs -/

theorem nodes_eq_seed (hg : g.Forward) : g.nodes = g.entry :: seed g := by
  obtain ⟨rest, hrest⟩ := hg.head
  have hnotMem : g.entry ∉ rest := (List.nodup_cons.1 (hrest ▸ g.nodup)).1
  have hseed : seed g = rest := by
    rw [seed, hrest, List.filter_cons_of_neg (by simp)]
    exact List.filter_eq_self.2 fun n hn => decide_eq_true fun h => hnotMem (h ▸ hn)
  rw [hseed, hrest]

theorem inflow_congr (h : ∀ m ∈ g.preds n, t'.after m = t.after m) : inflow p g t' n = inflow p g t n :=
  List.foldl_ext _ _ _ fun f m hm => by rw [h m hm]

theorem sweep_eq (hg : g.Forward) (hn : n ∈ seed g) :
    (sweep p g).before n = inflow p g (sweep p g) n ∧
      (sweep p g).after n = (p.transfer n (inflow p g (sweep p g) n) p.initial).1 := by
  obtain ⟨l₁, l₂, hseed⟩ := List.append_of_mem hn
  have hnodes : g.nodes = (g.entry :: l₁) ++ n :: l₂ := by rw [nodes_eq_seed hg, hseed, List.cons_append]
  obtain ⟨t₁, hsweep⟩ : ∃ t₁, sweep p g = (n :: l₂).foldl (pass p g) t₁ :=
    ⟨_, by rw [sweep, hseed, List.foldl_append]⟩
  have hlater : n ∉ l₂ :=
    (List.nodup_cons.1 (List.nodup_append.1 (hseed ▸ nodup_seed g)).2.1).1
  -- the predecessors of `n` are all in front of it, so their facts are final when its turn comes
  have hinflow : inflow p g (sweep p g) n = inflow p g t₁ n := inflow_congr fun m hm => by
    rw [hsweep]
    exact (sameAt_foldl_pass (hg.notMem_of_mem_preds hnodes hm)).after
  have hsame : SameAt n (pass p g t₁ n) (sweep p g) := hsweep ▸ sameAt_foldl_pass hlater
  rw [hinflow, hsame.before, hsame.after]
  exact ⟨before_pass_self, after_pass_self⟩

theorem mem_seed_of_mem_woken (hg : g.Forward) (h : m ∈ woken p g t n) : m ∈ seed g := by
  unfold woken at h
  split at h
  · obtain ⟨e, he, -, rfl⟩ := Graph.mem_succs.1 h
    exact mem_seed.2 ⟨(g.ends_mem e he).2, hg.dst_ne_entry e he⟩
  · cases h

section

variable [Preorder F]

theorem quiet_sweep (hp : p.Monotone) (hg : g.Forward) (hn : n ∈ seed g) : Quiet p g (sweep p g) n := by
  obtain ⟨hbefore, hafter⟩ := sweep_eq (p := p) hg hn
  refine ⟨?_, fun m hm => ?_⟩
  · rw [Settled, hbefore, hafter]
    exact ⟨hp.transfer_le n _ _ (le_refl _), hp.transfer_le n _ _ (le_refl _)⟩
  · rw [hbefore]
    exact after_le_inflow hp hm

theorem unchanged_sweep_iff (hp : p.Monotone) (hg : g.Forward) (hn : n ∈ seed g) :
    (p.transfer n ((sweep p g).before n) p.initial).2 = false ↔
      AntisymmRel (· ≤ ·) p.initial ((sweep p g).after n) := by
  obtain ⟨hbefore, hafter⟩ := sweep_eq (p := p) hg hn
  rw [hbefore, hafter]
  exact hp.unchanged_iff n _ _

/-- On a forward graph solving leaves the tables of one pass. Besides the visits of that pass it makes one for
every node that waits because of them. -/
theorem solve_eq_sweep (hp : p.Monotone) (hk : p.Keeping) (hf : p.direction = .forward) (hg : g.Forward)
    (hb : Terminates p g (startForward p g)) :
    (solve p g none).error = none ∧ (solve p g none).solution.Holds g (sweep p g) ∧
      (solve p g none).solution.iterations = (seed g).length +
        total (((seed g).filter fun n => (p.transfer n ((sweep p g).before n) p.initial).2).map
          fun n => (g.succs n).length) := by
  obtain ⟨vs, s', hfirst, hs', hlen, hq⟩ :=
    visits_sweep (p := p) (s := ⟨startForward p g, seed g⟩) (holds_seed holds_startForward) rfl
  have hquiet : ∀ n ∈ s'.queue, Quiet p g (sweep p g) n := by
    intro n hn
    obtain ⟨k, -, hk⟩ := List.mem_flatMap.1 (hq ▸ hn)
    exact quiet_sweep hp hg (mem_seed_of_mem_woken hg hk)
  have hall := visits_append_iff.2 ⟨s', hfirst, visits_of_quiet hp hk hs' hquiet⟩
  rw [solve_of_forward hf, resumeForward_of_visits hall rfl hb]
  refine ⟨rfl, hs'.facts, ?_⟩
  change (_ ++ _ : List (Visit N F)).length = _
  rw [List.length_append, List.length_map, hlen, hq, length_flatMap_woken]

end

end Dataflow.Worklist
