import Dataflow.Graph.Indexed
import Dataflow.Proofs.Graph.Neighbours
import Dataflow.Proofs.OrderedMap

/-!
# Edge tables

However nodes and edges are added, no addition fails, and each table has the nodes of the graph with the edges
of the graph that have them at one end. So what is read in the tables is what the list of edges says.
-/

namespace Dataflow

variable {N : Type} [DecidableEq N]

/-! ## Sequences of additions -/

namespace Graph

variable (g : Graph N) (as : List (Addition N))

theorem edges_addAll : (g.addAll as).edges = g.edges ++ as.filterMap Addition.edge? := by
  induction as generalizing g with
  | nil => exact (List.append_nil _).symm
  | cons a as ih =>
      rw [addAll, List.foldl_cons, ← addAll, ih]
      cases a with
      | node n => simp [List.filterMap_cons, Addition.edge?, edges_addNode]
      | edge e => simp [Addition.edge?]

theorem nodes_addAll :
    (g.addAll as).nodes = g.nodes ++ (distinct (as.flatMap Addition.nodes)).filter (· ∉ g.nodes) := by
  rw [← foldl_add_eq]
  induction as generalizing g with
  | nil => rfl
  | cons a as ih =>
      rw [addAll, List.foldl_cons, ← addAll, ih, List.flatMap_cons, List.foldl_append]
      congr 1
      cases a with
      | node n => exact nodes_addNode g n
      | edge e =>
          change ((g.addNode e.src).addNode e.dst).nodes = _
          rw [nodes_addNode, nodes_addNode]
          rfl

theorem nodes_addAll_start (name : String) (entry exit : N) :
    ((start name entry exit).addAll as).nodes = distinct (entry :: as.flatMap Addition.nodes) := by
  rw [nodes_addAll, distinct]
  simp [start]

end Graph

/-! ## Tables -/

namespace EdgeTable

/-- The table has the nodes, each with the edges that have it at the given end. -/
def Lists (table : EdgeTable N) (side : Edge N → N) (nodes : List N) (edges : List (Edge N)) : Prop :=
  ∀ n, table.get? n = if n ∈ nodes then some (edges.filter fun e => side e = n) else none

variable {table : EdgeTable N} {side : Edge N → N} {nodes : List N} {edges : List (Edge N)} {n : N}

theorem Lists.contains (h : table.Lists side nodes edges) : table.contains n = decide (n ∈ nodes) := by
  rw [OrderedMap.contains, h n]
  split
  · next hn => simp [hn]
  · next hn => simp [hn]

theorem Lists.insert (h : table.Lists side nodes edges) (hside : ∀ e ∈ edges, side e ≠ n) :
    EdgeTable.Lists (OrderedMap.insert table n []) side (nodes ++ [n]) edges := by
  intro m
  rw [OrderedMap.get?_insert, h m]
  by_cases hm : n = m
  · subst hm
    have hnone : edges.filter (fun e => side e = n) = [] := by
      rw [List.filter_eq_nil_iff]
      exact fun e he => by simpa using hside e he
    simp [hnone]
  · simp [hm, Ne.symm hm]

theorem Lists.add? (h : table.Lists side nodes edges) {e : Edge N} (he : side e ∈ nodes) :
    ∃ table', table.add? (side e) e = some table' ∧ table'.Lists side nodes (edges ++ [e]) := by
  refine ⟨_, by rw [EdgeTable.add?, h, if_pos he]; rfl, fun m => ?_⟩
  rw [OrderedMap.get?_insert, h m]
  by_cases hm : side e = m
  · subst hm
    simp [he, List.filter_append]
  · simp [hm, List.filter_append]

end EdgeTable

namespace IndexedGraph

/-- The graph with edge tables has the nodes and edges of the other one, and its tables list them. -/
structure Indexes (t : IndexedGraph N) (g : Graph N) : Prop where
  entry : t.entry = g.entry
  exit : t.exit = g.exit
  nodes : t.nodes = g.nodes
  edges : t.edges = g.edges
  leaving : t.leaving.Lists (·.src) g.nodes g.edges
  entering : t.entering.Lists (·.dst) g.nodes g.edges

variable {t : IndexedGraph N} {g : Graph N}

/-! ## Adding -/

theorem indexes_start (name : String) (entry exit : N) :
    (start entry exit).Indexes (Graph.start name entry exit) := by
  have hone : ∀ side : Edge N → N,
      EdgeTable.Lists (OrderedMap.insert (.empty : EdgeTable N) entry []) side [entry] [] := by
    intro side
    have hnone : EdgeTable.Lists (.empty : EdgeTable N) side [] [] := fun _ => rfl
    exact hnone.insert nofun
  exact ⟨rfl, rfl, rfl, rfl, hone _, hone _⟩

theorem Indexes.addNode (h : t.Indexes g) (n : N) : (t.addNode n).Indexes (g.addNode n) := by
  rw [IndexedGraph.addNode, Graph.addNode, h.leaving.contains]
  by_cases hn : n ∈ g.nodes
  · simpa [hn] using h
  · simp only [hn, decide_false, Bool.false_eq_true, if_false, dite_false]
    exact {
      entry := h.entry
      exit := h.exit
      nodes := congrArg (· ++ [n]) h.nodes
      edges := h.edges
      leaving := h.leaving.insert fun e he hsrc => hn (hsrc ▸ (g.ends_mem e he).1)
      entering := h.entering.insert fun e he hdst => hn (hdst ▸ (g.ends_mem e he).2) }

theorem Indexes.addEdge (h : t.Indexes g) (e : Edge N) :
    ∃ t', t.addEdge? e = some t' ∧ t'.Indexes (g.addEdge e) := by
  have hends := (h.addNode e.src).addNode e.dst
  have hedges : ((g.addNode e.src).addNode e.dst).edges = g.edges := by
    rw [Graph.edges_addNode, Graph.edges_addNode]
  obtain ⟨hsrc, hdst⟩ := (g.addEdge e).ends_mem e (List.mem_append_right _ List.mem_cons_self)
  obtain ⟨leaving, hleaving, hlists⟩ := hends.leaving.add? hsrc
  obtain ⟨entering, hentering, hlists'⟩ := hends.entering.add? hdst
  rw [hedges] at hlists hlists'
  refine ⟨_, by rw [addEdge?]; simp only [hleaving, hentering]; rfl, ?_⟩
  exact {
    entry := hends.entry
    exit := hends.exit
    nodes := hends.nodes
    edges := congrArg (· ++ [e]) (hends.edges.trans hedges)
    leaving := hlists
    entering := hlists' }

theorem Indexes.addAll (h : t.Indexes g) (as : List (Addition N)) :
    ∃ t', t.addAll? as = some t' ∧ t'.Indexes (g.addAll as) := by
  induction as generalizing t g with
  | nil => exact ⟨t, rfl, h⟩
  | cons a as ih =>
      have hadd : ∃ t', t.add? a = some t' ∧ t'.Indexes (g.addAll [a]) := by
        cases a with
        | node n => exact ⟨_, rfl, h.addNode n⟩
        | edge e => exact h.addEdge e
      obtain ⟨t₁, hadd, h₁⟩ := hadd
      obtain ⟨t₂, hrest, h₂⟩ := ih h₁
      refine ⟨t₂, ?_, h₂⟩
      rw [addAll?, List.foldlM_cons, hadd]
      exact hrest

/-! ## Reading the tables -/

variable {n : N}

theorem Indexes.outEdges (h : t.Indexes g) : t.outEdges? n = g.at? n g.outEdges := h.leaving n

theorem Indexes.inEdges (h : t.Indexes g) : t.inEdges? n = g.at? n g.inEdges := h.entering n

theorem Indexes.succs (h : t.Indexes g) : t.succs? n = g.at? n g.succs := by
  rw [succs?, h.outEdges, Graph.at?, Graph.at?]
  split <;> rfl

theorem Indexes.preds (h : t.Indexes g) : t.preds? n = g.at? n g.preds := by
  rw [preds?, h.inEdges, Graph.at?, Graph.at?]
  split <;> rfl

/-- The position of the first edge from one node to another. -/
def firstEdge (edges : List (Edge N)) (u v : N) : Nat := edges.findIdx fun e => e.src = u ∧ e.dst = v

/-- What is read in the tables is what the nodes and the edges say. -/
structure Consistent (t : IndexedGraph N) : Prop where
  nodup : t.nodes.Nodup
  ends_mem : ∀ e ∈ t.edges, e.src ∈ t.nodes ∧ e.dst ∈ t.nodes
  outEdges : ∀ n, t.outEdges? n = if n ∈ t.nodes then some (t.edges.filter fun e => e.src = n) else none
  inEdges : ∀ n, t.inEdges? n = if n ∈ t.nodes then some (t.edges.filter fun e => e.dst = n) else none
  /-- Successors are distinct and stand in the order of the first edges to them. -/
  succs : ∀ n ∈ t.nodes, ∃ l, t.succs? n = some l ∧ l.Nodup ∧
    (∀ m, m ∈ l ↔ ∃ e ∈ t.edges, e.src = n ∧ e.dst = m) ∧
    l.Pairwise fun p q => firstEdge t.edges n p < firstEdge t.edges n q
  /-- Predecessors are distinct and stand in the order of the first edges from them. -/
  preds : ∀ n ∈ t.nodes, ∃ l, t.preds? n = some l ∧ l.Nodup ∧
    (∀ m, m ∈ l ↔ ∃ e ∈ t.edges, e.src = m ∧ e.dst = n) ∧
    l.Pairwise fun p q => firstEdge t.edges p n < firstEdge t.edges q n
  mirror : ∀ p n, (∃ l, t.preds? n = some l ∧ p ∈ l) ↔ ∃ l, t.succs? p = some l ∧ n ∈ l

theorem Indexes.succs_order (h : t.Indexes g) (n : N) :
    (g.succs n).Pairwise fun p q => firstEdge t.edges n p < firstEdge t.edges n q := by
  have horder := pairwise_distinct_findIdx (·.dst) (fun e => e.src = n) g.edges
  simpa only [h.edges, firstEdge, Graph.succs, Graph.outEdges, Bool.decide_and] using horder

theorem Indexes.preds_order (h : t.Indexes g) (n : N) :
    (g.preds n).Pairwise fun p q => firstEdge t.edges p n < firstEdge t.edges q n := by
  have horder := pairwise_distinct_findIdx (·.src) (fun e => e.dst = n) g.edges
  simpa only [h.edges, firstEdge, Graph.preds, Graph.inEdges, Bool.decide_and, Bool.and_comm] using horder

theorem exists_at?_mem {query : N → List N} {m : N} :
    (∃ l, g.at? n query = some l ∧ m ∈ l) ↔ n ∈ g.nodes ∧ m ∈ query n := by
  rw [Graph.at?]
  split <;> simp [*]

theorem Indexes.consistent (h : t.Indexes g) : t.Consistent where
  nodup := h.nodes ▸ g.nodup
  ends_mem := by rw [h.nodes, h.edges]; exact g.ends_mem
  outEdges n := by rw [h.outEdges, h.nodes, h.edges]; rfl
  inEdges n := by rw [h.inEdges, h.nodes, h.edges]; rfl
  succs n hn := by
    refine ⟨g.succs n, ?_, nodup_distinct _, fun m => by rw [h.edges, Graph.mem_succs], h.succs_order n⟩
    rw [h.succs, Graph.at?, if_pos (h.nodes ▸ hn)]
  preds n hn := by
    refine ⟨g.preds n, ?_, nodup_distinct _, fun m => by rw [h.edges, Graph.mem_preds], h.preds_order n⟩
    rw [h.preds, Graph.at?, if_pos (h.nodes ▸ hn)]
  mirror p n := by
    rw [h.preds, h.succs, exists_at?_mem, exists_at?_mem, Graph.mem_preds_iff_mem_succs]
    refine and_congr_left fun hlink => iff_of_true ?_ ?_
    · exact Graph.mem_nodes_of_mem_succs hlink
    · exact Graph.mem_nodes_of_mem_preds (Graph.mem_preds_iff_mem_succs.2 hlink)

/-- However nodes and edges are added to the graph of the entry alone, no addition fails. The nodes are those named
and the edges those added, the tables are consistent with them, and every query is answered as by the graph that
reads its one list of edges. -/
theorem addAll_consistent (name : String) (entry exit : N) (as : List (Addition N)) :
    let g := (Graph.start name entry exit).addAll as
    ∃ t, (start entry exit).addAll? as = some t ∧ t.Consistent ∧
      t.nodes = distinct (entry :: as.flatMap Addition.nodes) ∧ t.edges = as.filterMap Addition.edge? ∧
      t.nodes = g.nodes ∧ t.edges = g.edges ∧
      ∀ n, t.outEdges? n = g.at? n g.outEdges ∧ t.inEdges? n = g.at? n g.inEdges ∧
        t.succs? n = g.at? n g.succs ∧ t.preds? n = g.at? n g.preds := by
  intro g
  obtain ⟨t, ht, h⟩ := (indexes_start name entry exit).addAll as
  have hnodes := h.nodes.trans (Graph.nodes_addAll_start as name entry exit)
  have hedges := h.edges.trans (Graph.edges_addAll (.start name entry exit) as)
  exact ⟨t, ht, h.consistent, hnodes, hedges, h.nodes, h.edges, fun n =>
    ⟨h.outEdges, h.inEdges, h.succs, h.preds⟩⟩

example :
    ((start 0 0).addAll? [.edge ⟨1, 1, .goto⟩, .edge ⟨0, 1, .ifTrue⟩, .edge ⟨0, 1, .ifFalse⟩, .node 1]).bind
      (·.preds? 1) = some [1, 0] := by decide

end IndexedGraph

end Dataflow
