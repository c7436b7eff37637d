import Dataflow.Graph

/-!
# Reachable nodes

A depth-first search that enters every node at most once.
-/

namespace Dataflow

theorem length_filter_notMem_cons_lt {α : Type} [DecidableEq α] {l k : List α} {a : α} (ha : a ∈ l)
    (hk : a ∉ k) : (l.filter fun b => b ∉ a :: k).length < (l.filter fun b => b ∉ k).length := by
  have hsub : l.filter (fun b => b ∉ a :: k) = (l.filter fun b => b ∉ k).filter fun b => b ≠ a := by
    rw [List.filter_filter]; congr 1; funext b; simp
  rw [hsub]
  refine List.length_filter_lt_length_iff_exists.2 ⟨a, ?_, by simp⟩
  exact List.mem_filter.2 ⟨ha, by simpa using hk⟩

namespace Graph

variable {N : Type} [DecidableEq N]

/-- The number of nodes that a search has not entered. -/
def unvisited (g : Graph N) (visited : List N) : Nat :=
  (g.nodes.filter fun n => n ∉ visited).length

theorem unvisited_cons_lt {g : Graph N} {visited : List N} {n : N} (hn : n ∈ g.nodes)
    (hv : n ∉ visited) : g.unvisited (n :: visited) < g.unvisited visited :=
  length_filter_notMem_cons_lt hn hv

/-- Extends the visited nodes by all that the pending ones lead to. -/
def search (g : Graph N) (visited : List N) : List N → List N
  | [] => visited
  | n :: pending =>
      if _h : n ∉ visited ∧ n ∈ g.nodes then g.search (n :: visited) (g.succs n ++ pending)
      else g.search visited pending
termination_by pending => (g.unvisited visited, pending.length)
decreasing_by
  · exact Prod.Lex.left _ _ (unvisited_cons_lt _h.2 _h.1)
  · exact Prod.Lex.right _ (Nat.lt_succ_self _)

/-- The nodes on paths from `n`, in the order of the graph; `none` outside the graph. -/
def reachable? (g : Graph N) (n : N) : Option (List N) :=
  g.at? n fun n =>
    let found := g.search [] [n]
    g.nodes.filter (· ∈ found)

end Graph

end Dataflow
