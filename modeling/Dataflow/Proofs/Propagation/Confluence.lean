import Dataflow.Proofs.Propagation.Solving

/-!
# The order of a graph does not matter

Which nodes and edges a graph has decides its solution. The orders in which they were added, parallel
edges and the reasons of edges change the visits that a run makes, not what it ends with.
-/

namespace Dataflow.Propagation

open Worklist

variable {m : Method} {g g' : Graph Node}

/-- Graphs with the same entry, the same nodes and the same links have the same solution. -/
theorem solve_agree_of_links (m : Method) (hentry : ∀ e ∈ g.edges, e.dst ≠ g.entry)
    (he : g'.entry = g.entry) (hnodes : ∀ n, n ∈ g'.nodes ↔ n ∈ g.nodes)
    (hlinks : ∀ u v, g'.Links u v ↔ g.Links u v) :
    ∃ t t', SolvesTo m g t ∧ SolvesTo m g' t' ∧ Agree g t t' := by
  have hentry' : ∀ e ∈ g'.edges, e.dst ≠ g'.entry := by
    intro e h hd
    obtain ⟨e', h', -, hd'⟩ := (hlinks e.src e.dst).1 ⟨e, h, rfl, rfl⟩
    exact hentry e' h' (hd'.trans (hd.trans he))
  obtain ⟨herr, t, ht, hsolves⟩ := solve_problem m hentry
  obtain ⟨herr', t', ht', hsolves'⟩ := solve_problem m hentry'
  have hle : t.Below g t' :=
    hsolves.below_of_links hentry' hsolves' he (fun n => (hnodes n).2) fun u v => (hlinks u v).2
  have hge : t'.Below g' t :=
    hsolves'.below_of_links hentry hsolves he.symm (fun n => (hnodes n).1) fun u v => (hlinks u v).1
  exact ⟨t, t', ⟨herr, ht⟩, ⟨herr', ht'⟩, agree_of_below hle fun n hn => hge n ((hnodes n).2 hn)⟩

theorem solve_agree_of_links_countdown :
    ∃ g g' : Graph Node, countdown.graph = .ok g ∧
      g' = (g.edges.reverse ++ g.edges.map fun e => Edge.mk e.src e.dst .goto).foldl Graph.addEdge
        (.start "countdown" .entry .exit) ∧
      g'.nodes ≠ g.nodes ∧ (∀ e ∈ g.edges, e.dst ≠ g.entry) ∧ g'.entry = g.entry ∧
      (∀ n, n ∈ g'.nodes ↔ n ∈ g.nodes) ∧ (∀ u v, g'.Links u v ↔ g.Links u v) ∧
      ∃ t t', SolvesTo countdown g t ∧ SolvesTo countdown g' t' ∧ Agree g t t' := by
  refine ⟨_, _, rfl, rfl, by decide +kernel, ?hentry, ?he, ?hnodes, ?hlinks,
    solve_agree_of_links countdown ?hentry ?he ?hnodes ?hlinks⟩
  case hentry => decide +kernel
  case he => decide +kernel
  case hnodes => exact fun n => List.Perm.mem_iff (by decide +kernel)
  case hlinks =>
    intro u v
    rw [Graph.links_iff, Graph.links_iff]
    generalize (u, v) = p
    constructor
    · revert p; decide +kernel
    · revert p; decide +kernel

end Dataflow.Propagation
