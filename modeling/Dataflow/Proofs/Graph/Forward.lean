import Dataflow.Proofs.Graph.Neighbours
import Mathlib.Data.List.Basic

/-!
# Graphs without backward edges

The order of the nodes puts the predecessors of a node before it and the entry before all.
-/

namespace Dataflow.Graph

variable {N : Type} [DecidableEq N] {g : Graph N} {n m : N} {l₁ l₂ : List N}

/-- The entry is the first node, and every edge leads from an earlier to a later node. -/
structure Forward (g : Graph N) : Prop where
  head : ∃ rest, g.nodes = g.entry :: rest
  edge : ∀ e ∈ g.edges, g.nodes.idxOf e.src < g.nodes.idxOf e.dst

theorem Forward.dst_ne_entry (hg : g.Forward) : ∀ e ∈ g.edges, e.dst ≠ g.entry := by
  intro e he hdst
  obtain ⟨rest, hrest⟩ := hg.head
  have hlt := hg.edge e he
  rw [hdst, hrest, List.idxOf_cons_self] at hlt
  exact Nat.not_lt_zero _ hlt

theorem Forward.notMem_of_mem_preds (hg : g.Forward) (hnodes : g.nodes = l₁ ++ n :: l₂)
    (hm : m ∈ g.preds n) : m ∉ n :: l₂ := by
  intro hmem
  obtain ⟨e, he, rfl, rfl⟩ := mem_preds.1 hm
  have hdisjoint : ∀ k ∈ e.dst :: l₂, k ∉ l₁ := fun k hk hk' =>
    (List.nodup_append.1 (hnodes ▸ g.nodup)).2.2 k hk' k hk rfl
  have hlt := hg.edge e he
  rw [hnodes, List.idxOf_append_of_notMem (hdisjoint _ hmem),
    List.idxOf_append_of_notMem (hdisjoint _ List.mem_cons_self), List.idxOf_cons_self] at hlt
  omega

end Dataflow.Graph
