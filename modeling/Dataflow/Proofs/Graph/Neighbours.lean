import Dataflow.Graph

/-!
# Neighbours by edges

Successors and predecessors are the two ends of the same edges, and what adding nodes and edges does to
a graph.
-/

namespace Dataflow

theorem mem_distinct {α : Type} [DecidableEq α] {a : α} {l : List α} : a ∈ distinct l ↔ a ∈ l := by
  induction l with
  | nil => simp [distinct]
  | cons b l ih =>
      simp only [distinct, List.mem_cons, List.mem_filter, ih, ne_eq, decide_eq_true_eq]
      by_cases h : a = b <;> simp [h]

theorem nodup_distinct {α : Type} [DecidableEq α] (l : List α) : (distinct l).Nodup := by
  induction l with
  | nil => exact List.nodup_nil
  | cons a l ih =>
      rw [distinct, List.nodup_cons]
      exact ⟨by simp, List.Nodup.sublist List.filter_sublist ih⟩

theorem filter_distinct_eq_nil {α : Type} [DecidableEq α] {l k : List α} (h : ∀ a ∈ l, a ∈ k) :
    (distinct l).filter (· ∉ k) = [] := by
  rw [List.filter_eq_nil_iff]
  intro a ha
  simpa using h a (mem_distinct.1 ha)

theorem distinct_of_nodup {α : Type} [DecidableEq α] {l : List α} (h : l.Nodup) : distinct l = l := by
  induction l with
  | nil => rfl
  | cons a l ih =>
      obtain ⟨ha, hl⟩ := List.nodup_cons.1 h
      rw [distinct, ih hl, List.filter_eq_self.2]
      exact fun b hb => by simpa using fun hba : b = a => ha (hba ▸ hb)

theorem distinct_map {α β : Type} [DecidableEq α] [DecidableEq β] {f : α → β}
    (hf : ∀ a b, f a = f b → a = b) (l : List α) : distinct (l.map f) = (distinct l).map f := by
  induction l with
  | nil => rfl
  | cons a l ih =>
      have hcomp : ((· ≠ f a) : β → Bool) ∘ f = ((· ≠ a) : α → Bool) := by
        funext b
        exact decide_eq_decide.2 (not_congr ⟨hf b a, congrArg f⟩)
      rw [List.map_cons, distinct, ih, List.filter_map, hcomp, distinct, List.map_cons]

/-- Among the values of kept elements, one that comes first at an earlier element stands earlier. -/
theorem pairwise_distinct_findIdx {α β : Type} [DecidableEq β] (f : α → β) (keep : α → Bool) (l : List α) :
    (distinct ((l.filter keep).map f)).Pairwise fun b c =>
      l.findIdx (fun a => keep a && decide (f a = b)) < l.findIdx (fun a => keep a && decide (f a = c)) := by
  induction l with
  | nil => exact .nil
  | cons a l ih =>
      by_cases ha : keep a = true
      · rw [List.filter_cons_of_pos ha, List.map_cons, distinct, List.pairwise_cons]
        refine ⟨fun b hb => ?_, (ih.filter _).imp_of_mem fun {b c} hb hc hlt => ?_⟩
        · have hb : b ≠ f a := of_decide_eq_true (List.mem_filter.1 hb).2
          simp [List.findIdx_cons, ha, Ne.symm hb]
        · have hb : b ≠ f a := of_decide_eq_true (List.mem_filter.1 hb).2
          have hc : c ≠ f a := of_decide_eq_true (List.mem_filter.1 hc).2
          simpa [List.findIdx_cons, Ne.symm hb, Ne.symm hc] using hlt
      · rw [List.filter_cons_of_neg ha]
        simpa [List.findIdx_cons, ha] using ih

/-- Adding elements one by one at the end, unless they are there, adds the distinct new ones. -/
theorem foldl_add_eq {α : Type} [DecidableEq α] (l k : List α) :
    l.foldl (fun k a => if a ∈ k then k else k ++ [a]) k = k ++ (distinct l).filter (· ∉ k) := by
  induction l generalizing k with
  | nil => simp [distinct]
  | cons a l ih =>
      rw [List.foldl_cons, ih, distinct, List.filter_cons, List.filter_filter]
      by_cases h : a ∈ k
      · have hsame : ∀ b, decide (b ∉ k) = (decide (b ∉ k) && decide (b ≠ a)) := by
          intro b
          by_cases hb : b = a
          · simp [hb, h]
          · simp [hb]
        simp only [h, not_true_eq_false, if_true, decide_false, Bool.false_eq_true, if_false, ← hsame]
      · have hsame : ∀ b, decide (b ∉ k ++ [a]) = (decide (b ∉ k) && decide (b ≠ a)) := by simp
        simp only [h, not_false_eq_true, if_false, decide_true, if_true, hsame, List.append_assoc,
          List.singleton_append]

namespace Graph

variable {N : Type}

/-- An edge leads from one node to the other. -/
def Links (g : Graph N) (u v : N) : Prop := ∃ e ∈ g.edges, e.src = u ∧ e.dst = v

theorem Links.mem_nodes {g : Graph N} {u v : N} (h : g.Links u v) : u ∈ g.nodes ∧ v ∈ g.nodes := by
  obtain ⟨e, he, rfl, rfl⟩ := h
  exact g.ends_mem e he

theorem Links.ne_entry {g : Graph N} (hentry : ∀ e ∈ g.edges, e.dst ≠ g.entry) {u v : N}
    (h : g.Links u v) : v ≠ g.entry := by
  obtain ⟨e, he, -, rfl⟩ := h
  exact hentry e he

theorem links_iff {g : Graph N} {u v : N} :
    g.Links u v ↔ (u, v) ∈ g.edges.map fun e => (e.src, e.dst) := by
  simp [Links]

variable [DecidableEq N] {g : Graph N} {n m : N}

theorem mem_succs : m ∈ g.succs n ↔ ∃ e ∈ g.edges, e.src = n ∧ e.dst = m := by
  simp [succs, outEdges, mem_distinct, and_assoc]

theorem mem_preds : m ∈ g.preds n ↔ ∃ e ∈ g.edges, e.src = m ∧ e.dst = n := by
  simp only [preds, inEdges, mem_distinct, List.mem_map, List.mem_filter, decide_eq_true_eq]
  exact ⟨fun ⟨e, ⟨he, hd⟩, hs⟩ => ⟨e, he, hs, hd⟩, fun ⟨e, he, hs, hd⟩ => ⟨e, ⟨he, hd⟩, hs⟩⟩

theorem mem_preds_iff_mem_succs : m ∈ g.preds n ↔ n ∈ g.succs m := by rw [mem_preds, mem_succs]

theorem mem_nodes_of_mem_succs (h : m ∈ g.succs n) : m ∈ g.nodes := by
  obtain ⟨e, he, -, rfl⟩ := mem_succs.1 h
  exact (g.ends_mem e he).2

theorem mem_nodes_of_mem_preds (h : m ∈ g.preds n) : m ∈ g.nodes := by
  obtain ⟨e, he, rfl, -⟩ := mem_preds.1 h
  exact (g.ends_mem e he).1

/-! ## Adding nodes and edges -/

theorem mem_foldl_addNode {α : Type} {f : α → N} {l : List α} :
    n ∈ (l.foldl (fun g a => g.addNode (f a)) g).nodes ↔ n ∈ g.nodes ∨ ∃ a ∈ l, n = f a := by
  induction l generalizing g with
  | nil => simp
  | cons a l ih => simp [ih, mem_addNode, or_assoc]

theorem nodes_addNode (g : Graph N) (n : N) :
    (g.addNode n).nodes = if n ∈ g.nodes then g.nodes else g.nodes ++ [n] := by
  unfold addNode
  split <;> rfl

theorem nodes_foldl_addNode {α : Type} (f : α → N) (l : List α) (g : Graph N) :
    (l.foldl (fun g a => g.addNode (f a)) g).nodes =
      g.nodes ++ (distinct (l.map f)).filter (· ∉ g.nodes) := by
  rw [← foldl_add_eq, List.foldl_map]
  exact (List.foldl_hom Graph.nodes fun g a => (nodes_addNode g (f a)).symm).symm

theorem addNode_of_mem (h : n ∈ g.nodes) : g.addNode n = g := by rw [addNode, dif_pos h]

@[simp] theorem entry_addNode (g : Graph N) (n : N) : (g.addNode n).entry = g.entry := by
  unfold addNode; split <;> rfl

@[simp] theorem entry_addEdge (g : Graph N) (e : Edge N) : (g.addEdge e).entry = g.entry := by
  simp [addEdge]

@[simp] theorem exit_addNode (g : Graph N) (n : N) : (g.addNode n).exit = g.exit := by
  unfold addNode; split <;> rfl

@[simp] theorem exit_addEdge (g : Graph N) (e : Edge N) : (g.addEdge e).exit = g.exit := by
  simp [addEdge]

/-- What adding one node leaves as it is stays the same however many are added. -/
theorem foldl_addNode_eq {α β : Type} {view : Graph N → β} (h : ∀ g n, view (g.addNode n) = view g)
    (f : α → N) (l : List α) (g : Graph N) :
    view (l.foldl (fun g a => g.addNode (f a)) g) = view g := by
  induction l generalizing g with
  | nil => rfl
  | cons a l ih => rw [List.foldl_cons, ih, h]

@[simp] theorem edges_addEdge (g : Graph N) (e : Edge N) : (g.addEdge e).edges = g.edges ++ [e] := rfl

theorem nodes_addEdge {e : Edge N} (hs : e.src ∈ g.nodes) (hd : e.dst ∈ g.nodes) :
    (g.addEdge e).nodes = g.nodes := by
  simp only [addEdge, addNode_of_mem hs, addNode_of_mem hd]

@[simp] theorem entry_foldl_addEdge (es : List (Edge N)) (g : Graph N) :
    (es.foldl addEdge g).entry = g.entry := by
  induction es generalizing g with
  | nil => rfl
  | cons e es ih => rw [List.foldl_cons, ih, entry_addEdge]

@[simp] theorem exit_foldl_addEdge (es : List (Edge N)) (g : Graph N) :
    (es.foldl addEdge g).exit = g.exit := by
  induction es generalizing g with
  | nil => rfl
  | cons e es ih => rw [List.foldl_cons, ih, exit_addEdge]

@[simp] theorem edges_foldl_addEdge (es : List (Edge N)) (g : Graph N) :
    (es.foldl addEdge g).edges = g.edges ++ es := by
  induction es generalizing g with
  | nil => simp
  | cons e es ih => rw [List.foldl_cons, ih, edges_addEdge, List.append_assoc, List.singleton_append]

theorem nodes_foldl_addEdge {es : List (Edge N)}
    (h : ∀ e ∈ es, e.src ∈ g.nodes ∧ e.dst ∈ g.nodes) : (es.foldl addEdge g).nodes = g.nodes := by
  induction es generalizing g with
  | nil => rfl
  | cons e es ih =>
      have he := h e List.mem_cons_self
      have hn : (g.addEdge e).nodes = g.nodes := nodes_addEdge he.1 he.2
      rw [List.foldl_cons, ih fun e' he' => hn ▸ h e' (List.mem_cons_of_mem e he'), hn]

end Graph

end Dataflow
