import Dataflow.Proofs.Graph.Indexed
import Dataflow.Proofs.Graph.Reach

/-!
# Searching with a stack

A search in the edge tables ends, looks up nodes of the graph only, and enters exactly the nodes to which a path
leads. The stack may hold a node many times: there is one pass for the start and one for every edge that leaves
a node entered.
-/

namespace Dataflow.IndexedGraph

variable {N : Type} {g : Graph N} {start m : N}

/-- What has been found and what is still to be looked at, in a search from `start`. -/
structure Explores (g : Graph N) (start : N) (s : Search N) : Prop where
  nodup : s.entered.Nodup
  start_mem : start ∈ s.entered ∨ start ∈ s.stack
  path : ∀ n, n ∈ s.entered ∨ n ∈ s.stack → Relation.ReflTransGen g.Links start n
  onward : ∀ n ∈ s.entered, ∀ m, g.Links n m → m ∈ s.entered ∨ m ∈ s.stack

theorem explores_start (g : Graph N) (start : N) : Explores g start ⟨[], [start]⟩ where
  nodup := .nil
  start_mem := .inr List.mem_cons_self
  path n hn := by
    obtain rfl := List.mem_singleton.1 (hn.resolve_left List.not_mem_nil)
    exact .refl
  onward := nofun

theorem Explores.mem_iff {found : List N} (hs : Explores g start ⟨found, []⟩) :
    m ∈ found ↔ Relation.ReflTransGen g.Links start m := by
  refine ⟨fun hm => hs.path m (.inl hm), fun hpath => ?_⟩
  induction hpath with
  | refl => exact hs.start_mem.resolve_right List.not_mem_nil
  | tail _ hlink ih => exact (hs.onward _ ih _ hlink).resolve_right List.not_mem_nil

variable [DecidableEq N] {t : IndexedGraph N} {s s' : Search N} {n : N}

/-- So many passes lead from one search to another. -/
inductive Passes (t : IndexedGraph N) : Nat → Search N → Search N → Prop where
  | refl (s : Search N) : t.Passes 0 s s
  | step {k : Nat} {s₁ s₂ s₃ : Search N} (h : t.pass s₁ = .next s₂) (rest : t.Passes k s₂ s₃) :
      t.Passes (k + 1) s₁ s₃

/-! ## One pass -/

theorem Indexes.outEdges_eq_some (h : t.Indexes g) {es : List (Edge N)} (hes : t.outEdges? n = some es) :
    n ∈ g.nodes ∧ es = g.outEdges n := by
  rw [h.outEdges, Graph.at?] at hes
  split at hes
  · next hn =>
      cases hes
      exact ⟨hn, rfl⟩
  · cases hes

theorem mem_targets : m ∈ ((g.outEdges n).map (·.dst)).reverse ↔ g.Links n m := by
  simp [Graph.outEdges, Graph.Links, and_assoc]

theorem Explores.pass (hs : Explores g start s) (h : t.Indexes g) (hpass : t.pass s = .next s') :
    Explores g start s' := by
  obtain ⟨n, rest, hstack, hcase⟩ := pass_cases hpass
  have hsplit : ∀ m, m ∈ s.stack ↔ m = n ∨ m ∈ rest := fun m => by rw [hstack, List.mem_cons]
  obtain ⟨nodup, start_mem, path, onward⟩ := hs
  simp only [hsplit] at start_mem path onward
  rcases hcase with ⟨hn, rfl⟩ | ⟨hn, es, hes, rfl⟩
  · -- the node on top was entered before, so nothing is lost with it
    have hdrop : ∀ m, m ∈ s.entered ∨ m = n ∨ m ∈ rest → m ∈ s.entered ∨ m ∈ rest := fun m hm =>
      hm.elim .inl fun hm => hm.elim (fun hmn => .inl (hmn ▸ hn)) .inr
    exact ⟨nodup, hdrop _ start_mem, fun m hm => path m (hm.imp_right .inr),
      fun k hk m hlink => hdrop m (onward k hk m hlink)⟩
  · obtain ⟨-, rfl⟩ := h.outEdges_eq_some hes
    have hkeep : ∀ m, m ∈ s.entered ∨ m = n ∨ m ∈ rest →
        m ∈ n :: s.entered ∨ m ∈ ((g.outEdges n).map (·.dst)).reverse ++ rest := by
      intro m hm
      rw [List.mem_cons, List.mem_append]
      tauto
    refine ⟨List.nodup_cons.2 ⟨hn, nodup⟩, hkeep _ start_mem, fun m hm => ?_, fun k hk m hlink => ?_⟩
    · rw [List.mem_cons, List.mem_append, mem_targets] at hm
      rcases hm with (rfl | hm) | hlink | hm
      · exact path m (.inr (.inl rfl))
      · exact path m (.inl hm)
      · exact (path n (.inr (.inl rfl))).tail hlink
      · exact path m (.inr (.inr hm))
    · rcases List.mem_cons.1 hk with rfl | hk
      · exact .inr (List.mem_append_left _ (mem_targets.2 hlink))
      · exact hkeep m (onward k hk m hlink)

theorem Explores.pass_ne_missing (hs : Explores g start s) (h : t.Indexes g) (hstart : start ∈ g.nodes) :
    t.pass s ≠ .missing n := by
  intro hpass
  obtain ⟨hn, hnone⟩ := pass_eq_missing hpass
  have hmem : n ∈ g.nodes := Graph.mem_nodes_of_path hstart (hs.path n (.inr hn))
  rw [h.outEdges, Graph.at?, if_pos hmem] at hnone
  cases hnone

theorem pass_eq_done (h : t.pass s = .done) : s.stack = [] := by
  simp only [IndexedGraph.pass] at h
  split at h
  · assumption
  · split at h
    · cases h
    · split at h <;> cases h

/-! ## All passes -/

theorem Explores.search (hs : Explores g start s) (h : t.Indexes g) (hstart : start ∈ g.nodes) :
    ∃ found k, t.search s = some found ∧ t.Passes k s ⟨found, []⟩ ∧ Explores g start ⟨found, []⟩ := by
  fun_induction IndexedGraph.search t s with
  | case1 s hpass =>
      obtain ⟨entered, stack⟩ := s
      obtain rfl : stack = [] := pass_eq_done hpass
      exact ⟨entered, 0, rfl, .refl _, hs⟩
  | case2 s n hpass => exact absurd hpass (hs.pass_ne_missing h hstart)
  | case3 s s' hpass ih =>
      obtain ⟨found, k, hfound, hpasses, hend⟩ := ih (hs.pass h hpass)
      exact ⟨found, k + 1, hfound, .step hpass hpasses, hend⟩

/-- A pass takes one node off the stack, and the edges of a node go on it when that node is entered. -/
theorem Passes.count {k : Nat} (hp : t.Passes k s s') (h : t.Indexes g) :
    k + s'.stack.length + total (s.entered.map fun n => (g.outEdges n).length) =
      s.stack.length + total (s'.entered.map fun n => (g.outEdges n).length) := by
  induction hp with
  | refl s => omega
  | step hpass _ ih =>
      obtain ⟨n, rest, hstack, ⟨-, rfl⟩ | ⟨-, es, hes, rfl⟩⟩ := pass_cases hpass
      · simp only [hstack, List.length_cons] at ih ⊢
        omega
      · obtain ⟨-, rfl⟩ := h.outEdges_eq_some hes
        simp only [hstack, List.length_append, List.length_reverse, List.length_map, List.length_cons,
          List.map_cons, total, List.foldr_cons] at ih ⊢
        omega

theorem search_of_notMem (h : t.Indexes g) (hstart : start ∉ g.nodes) : t.reachable? start = none := by
  have hnone : t.outEdges? start = none := by rw [h.outEdges, Graph.at?, if_neg hstart]
  have hpass : t.pass ⟨[], [start]⟩ = .missing start := by simp [IndexedGraph.pass, hnone]
  rw [reachable?, IndexedGraph.search]
  split
  · next hdone => cases hpass.symm.trans hdone
  · rfl
  · next hnext => cases hpass.symm.trans hnext

/-- However nodes and edges were added, the search from a node of the graph ends after one pass for the start and one
for every edge that leaves a node found, and finds exactly the nodes to which a path of any length leads, each once;
from a node that was never added it fails. The search in the graph without tables answers alike. -/
theorem reachable_addAll (name : String) (entry exit : N) (as : List (Addition N)) (start : N) :
    let g := (Graph.start name entry exit).addAll as
    ∃ t, (IndexedGraph.start entry exit).addAll? as = some t ∧
      if start ∈ entry :: as.flatMap Addition.nodes then
        ∃ found, t.reachable? start = some found ∧ found.Nodup ∧
          (∀ m, m ∈ found ↔ Relation.ReflTransGen g.Links start m) ∧
          t.Passes (1 + total (found.map fun n => (g.outEdges n).length)) ⟨[], [start]⟩ ⟨found, []⟩ ∧
          g.reachable? start = some (g.nodes.filter (· ∈ found))
      else t.reachable? start = none ∧ g.reachable? start = none := by
  intro g
  obtain ⟨t, ht, h⟩ := (indexes_start name entry exit).addAll as
  have hmem : start ∈ g.nodes ↔ start ∈ entry :: as.flatMap Addition.nodes := by
    rw [Graph.nodes_addAll_start, mem_distinct]
  refine ⟨t, ht, ?_⟩
  split
  · next hstart =>
      have hnode : start ∈ g.nodes := hmem.2 hstart
      obtain ⟨found, k, hfound, hpasses, hend⟩ := (explores_start g start).search h hnode
      have hcount : k = 1 + total (found.map fun n => (g.outEdges n).length) := by
        simpa [total] using hpasses.count h
      refine ⟨found, hfound, hend.nodup, fun m => hend.mem_iff, hcount ▸ hpasses, ?_⟩
      rw [Graph.reachable?, Graph.at?, if_pos hnode]
      refine congrArg some (List.filter_congr fun m _ => decide_eq_decide.2 ?_)
      rw [Graph.mem_search_iff hnode, hend.mem_iff]
  · next hstart =>
      have hnode : start ∉ g.nodes := fun hn => hstart (hmem.1 hn)
      exact ⟨search_of_notMem h hnode, if_neg hnode⟩

end Dataflow.IndexedGraph
