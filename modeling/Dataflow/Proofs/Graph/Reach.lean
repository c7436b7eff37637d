import Dataflow.Graph.Reach
import Dataflow.Proofs.Graph.Neighbours
import Mathlib.Logic.Relation

/-!
# Reachable nodes and paths

The search finds exactly the nodes to which a path of any length leads.
-/

namespace Dataflow.Graph

variable {N : Type} {g : Graph N} {visited pending : List N} {n m : N}

theorem mem_nodes_of_path (hn : n ∈ g.nodes) (h : Relation.ReflTransGen g.Links n m) : m ∈ g.nodes := by
  cases h with
  | refl => exact hn
  | tail _ hl => exact hl.mem_nodes.2

variable [DecidableEq N]

theorem links_iff_mem_succs : g.Links n m ↔ m ∈ g.succs n := mem_succs.symm

theorem mem_search_of_visited (h : n ∈ visited) : n ∈ g.search visited pending := by
  fun_induction search g visited pending with
  | case1 visited => exact h
  | case2 visited k pending hk ih => exact ih (List.mem_cons_of_mem k h)
  | case3 visited k pending hk ih => exact ih h

theorem of_mem_search (h : m ∈ g.search visited pending) :
    m ∈ visited ∨ ∃ n ∈ pending, Relation.ReflTransGen g.Links n m := by
  fun_induction search g visited pending with
  | case1 visited => exact .inl h
  | case2 visited k pending hk ih =>
      rcases ih h with hm | ⟨n, hn, hpath⟩
      · rcases List.mem_cons.1 hm with rfl | hm
        · exact .inr ⟨m, List.mem_cons_self, .refl⟩
        · exact .inl hm
      · rcases List.mem_append.1 hn with hn | hn
        · exact .inr ⟨k, List.mem_cons_self, .head (links_iff_mem_succs.2 hn) hpath⟩
        · exact .inr ⟨n, List.mem_cons_of_mem k hn, hpath⟩
  | case3 visited k pending hk ih =>
      rcases ih h with hm | ⟨n, hn, hpath⟩
      · exact .inl hm
      · exact .inr ⟨n, List.mem_cons_of_mem k hn, hpath⟩

theorem mem_search_of_pending (hn : n ∈ pending) (hmem : n ∈ g.nodes) :
    n ∈ g.search visited pending := by
  fun_induction search g visited pending with
  | case1 visited => cases hn
  | case2 visited k pending hk ih =>
      rcases List.mem_cons.1 hn with rfl | hn
      · exact mem_search_of_visited List.mem_cons_self
      · exact ih (List.mem_append_right _ hn)
  | case3 visited k pending hk ih =>
      rcases List.mem_cons.1 hn with rfl | hn
      · exact mem_search_of_visited (Decidable.not_not.1 fun hv => hk ⟨hv, hmem⟩)
      · exact ih hn

/-- Successors of visited nodes are visited or pending, so those of found nodes are found. -/
theorem succs_mem_search (h : ∀ n ∈ visited, ∀ m ∈ g.succs n, m ∈ visited ∨ m ∈ pending)
    (hn : n ∈ g.search visited pending) (hm : m ∈ g.succs n) : m ∈ g.search visited pending := by
  fun_induction search g visited pending with
  | case1 visited => exact (h n hn m hm).resolve_right List.not_mem_nil
  | case2 visited k pending hk ih =>
      refine ih (fun a ha b hb => ?_) hn
      rcases List.mem_cons.1 ha with rfl | ha
      · exact .inr (List.mem_append_left _ hb)
      · rcases h a ha b hb with hb | hb
        · exact .inl (List.mem_cons_of_mem k hb)
        · rcases List.mem_cons.1 hb with rfl | hb
          · exact .inl List.mem_cons_self
          · exact .inr (List.mem_append_right _ hb)
  | case3 visited k pending hk ih =>
      refine ih (fun a ha b hb => ?_) hn
      rcases h a ha b hb with hb' | hb'
      · exact .inl hb'
      · rcases List.mem_cons.1 hb' with rfl | hb'
        · exact .inl (Decidable.not_not.1 fun hv => hk ⟨hv, mem_nodes_of_mem_succs hb⟩)
        · exact .inr hb'

theorem mem_search_iff (hn : n ∈ g.nodes) :
    m ∈ g.search [] [n] ↔ Relation.ReflTransGen g.Links n m := by
  constructor
  · intro h
    obtain ⟨k, hk, hpath⟩ := (of_mem_search h).resolve_left List.not_mem_nil
    exact List.mem_singleton.1 hk ▸ hpath
  · intro hpath
    induction hpath with
    | refl => exact mem_search_of_pending List.mem_cons_self hn
    | tail _ hl ih => exact succs_mem_search nofun ih (links_iff_mem_succs.1 hl)

theorem reachable?_of_mem (hn : n ∈ g.nodes) :
    ∃ r, g.reachable? n = some r ∧ ∀ m, m ∈ r ↔ Relation.ReflTransGen g.Links n m := by
  refine ⟨_, if_pos hn, fun m => ?_⟩
  rw [List.mem_filter, decide_eq_true_eq, mem_search_iff hn]
  exact and_iff_right_of_imp (mem_nodes_of_path hn)

end Dataflow.Graph
