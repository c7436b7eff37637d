import Dataflow.Proofs.Worklist.LeastSolution

/-!
# Detours

A graph in which edges into one node are led through a new node has the same least solution at the old
nodes, if the new node leaves every fact as it is.
-/

namespace Dataflow

variable {N F : Type} [DecidableEq N]

/-- The second graph has one node `d` more, which leads to `v` alone; some edges into `v` lead to `d`
there. -/
structure Graph.Detour (g g' : Graph N) (d v : N) : Prop where
  entry : g'.entry = g.entry
  nodes : ∀ n, n ∈ g'.nodes ↔ n ∈ g.nodes ∨ n = d
  fresh : d ∉ g.nodes
  target_mem : v ∈ g.nodes
  leaves : g'.Links d v
  links : ∀ a b, g.Links a b → g'.Links a b ∨ b = v ∧ g'.Links a d
  of_links : ∀ a b, g'.Links a b → g.Links a b ∨ (b = d ∧ g.Links a v) ∨ a = d ∧ b = v

namespace Worklist

/-- The tables with the fact before `v` on both sides of `d`. -/
def detoured (t : Facts N F) (d v : N) : Facts N F where
  before := Function.update t.before d (t.before v)
  after := Function.update t.after d (t.before v)

variable {p : Problem N F} {g g' : Graph N} {l l' : Facts N F} {d v n : N}

theorem before_detoured_of_ne (h : n ≠ d) : (detoured l d v).before n = l.before n :=
  Function.update_of_ne h ..

theorem after_detoured_of_ne (h : n ≠ d) : (detoured l d v).after n = l.after n :=
  Function.update_of_ne h ..

@[simp] theorem before_detoured_self : (detoured l d v).before d = l.before v := Function.update_self ..

@[simp] theorem after_detoured_self : (detoured l d v).after d = l.before v := Function.update_self ..

variable [Preorder F]

theorem Closed.le_of_links (h : Closed p g l) {a b : N} (hab : g.Links a b) : l.after a ≤ l.before b := by
  obtain ⟨e, he, rfl, rfl⟩ := hab
  exact h.edge e he

theorem Closed.detoured (hd : g.Detour g' d v) (hpass : ∀ f o, (p.transfer d f o).1 ≤ f)
    (h : Closed p g l) : Closed p g' (detoured l d v) where
  edge e he := by
    have hne : ∀ {n}, n ∈ g.nodes → n ≠ d := fun hn hnd => hd.fresh (hnd ▸ hn)
    rcases hd.of_links e.src e.dst ⟨e, he, rfl, rfl⟩ with hl | ⟨hdst, hl⟩ | ⟨hsrc, hdst⟩
    · rw [after_detoured_of_ne (hne hl.mem_nodes.1), before_detoured_of_ne (hne hl.mem_nodes.2)]
      exact h.le_of_links hl
    · rw [hdst, after_detoured_of_ne (hne hl.mem_nodes.1), before_detoured_self]
      exact h.le_of_links hl
    · rw [hsrc, hdst, after_detoured_self, before_detoured_of_ne (hne hd.target_mem)]
  node n hn hentry := by
    by_cases hnd : n = d
    · subst hnd
      rw [before_detoured_self, after_detoured_self]
      exact hpass _ _
    · rw [before_detoured_of_ne hnd, after_detoured_of_ne hnd]
      exact h.node n (((hd.nodes n).1 hn).resolve_right hnd) (hd.entry ▸ hentry)

theorem Solves.below_of_detour (hd : g.Detour g' d v) (hpass : ∀ f o, (p.transfer d f o).1 ≤ f)
    (hentry : ∀ e ∈ g.edges, e.dst ≠ g.entry) (hl : Solves p g l) (hl' : Solves p g' l') :
    l'.Below g l := by
  have hne : ∀ {n}, n ∈ g.nodes → n ≠ d := fun hn hnd => hd.fresh (hnd ▸ hn)
  have hbelow : l'.Below g' (detoured l d v) := by
    refine hl'.least _ ((hl.closed hentry).detoured hd hpass) ?_
    rw [hd.entry, after_detoured_of_ne (hne g.entry_mem), hl.after_entry]
  intro n hn
  have hle := hbelow n ((hd.nodes n).2 (.inl hn))
  rwa [before_detoured_of_ne (hne hn), after_detoured_of_ne (hne hn)] at hle

theorem Solves.below_detour (hd : g.Detour g' d v) (hpass : ∀ f o, f ≤ (p.transfer d f o).1)
    (hentry' : ∀ e ∈ g'.edges, e.dst ≠ g'.entry) (hl : Solves p g l) (hl' : Solves p g' l') :
    l.Below g l' := by
  have hclosed := hl'.closed hentry'
  have hentry : d ≠ g'.entry := fun h => hd.fresh (h ▸ hd.entry ▸ g.entry_mem)
  refine hl.least l' ⟨fun e he => ?_, fun n hn hne => ?_⟩ ?_
  · rcases hd.links e.src e.dst ⟨e, he, rfl, rfl⟩ with h | ⟨hdst, h⟩
    · exact hclosed.le_of_links h
    · rw [hdst]
      calc l'.after e.src
          ≤ l'.before d := hclosed.le_of_links h
        _ ≤ (p.transfer d (l'.before d) (l'.after d)).1 := hpass _ _
        _ ≤ l'.after d := hclosed.node d ((hd.nodes d).2 (.inr rfl)) hentry
        _ ≤ l'.before v := hclosed.le_of_links hd.leaves
  · exact hclosed.node n ((hd.nodes n).2 (.inl hn)) (hd.entry.symm ▸ hne)
  · rw [← hd.entry, hl'.after_entry]

end Worklist

end Dataflow
