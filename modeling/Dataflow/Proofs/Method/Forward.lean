import Dataflow.Proofs.Graph.Forward
import Dataflow.Proofs.Method.Positions

/-!
# Methods whose jumps go forward

In the graph of a method of distinct statements the nodes stand in the order of the positions. If no jump
leads back, control passes to later positions only, so every edge leads to a later node.
-/

namespace Dataflow.Method

/-- Every jump stands before its label. -/
def JumpsForward (m : Method) : Prop :=
  ∀ i s l j, m.body[i]? = some s → s.instr.jump? = some l → m.LabelAt l j → i < j

variable {m : Method} {g : Graph Node} {i j : Nat} {s : Stmt} {l : String}

theorem LabelAt.lt_length (h : m.LabelAt l j) : j < m.body.length := by
  obtain ⟨t, ht, -⟩ := h.here
  exact (List.getElem?_eq_some_iff.1 ht).1

theorem JumpsForward.lt_of_follows (hm : m.JumpsForward) (hs : m.body[i]? = some s) (h : m.Follows i s j) :
    i < j ∧ j ≤ m.body.length := by
  have hi : i < m.body.length := (List.getElem?_eq_some_iff.1 hs).1
  have hjump : ∀ l, s.instr.jump? = some l → m.LabelAt l j → i < j ∧ j ≤ m.body.length :=
    fun l hl hj => ⟨hm i s l j hs hl hj, Nat.le_of_lt hj.lt_length⟩
  unfold Follows at h
  split at h
  · next c l hinstr =>
      rcases h with h | rfl
      · exact hjump l (by rw [hinstr, Instr.jump?]) h
      · exact ⟨Nat.lt_succ_self i, hi⟩
  · next l hinstr => exact hjump l (by rw [hinstr, Instr.jump?]) h
  · exact ⟨h ▸ hi, Nat.le_of_eq h⟩
  · exact ⟨h ▸ Nat.lt_succ_self i, h ▸ hi⟩

theorem jumpsForward_of_labels
    (h : ∀ i < m.body.length, ∀ j ≤ i, m.body[i]?.bind (·.instr.jump?) ≠ none →
      m.body[j]?.bind (·.instr.labelName?) ≠ m.body[i]?.bind (·.instr.jump?)) : m.JumpsForward := by
  intro i s l j hs hl hj
  obtain ⟨t, ht, hname⟩ := hj.here
  have hi : i < m.body.length := (List.getElem?_eq_some_iff.1 hs).1
  by_contra hle
  refine h i hi j (Nat.le_of_not_lt hle) ?_ ?_
  · simp [hs, hl]
  · rw [hs, ht, Option.bind_some, Option.bind_some, hname, hl]

/-! ## The order of the nodes -/

theorem nodes_of_nodup (h : m.graph = .ok g) (hbody : m.body.Nodup) :
    g.nodes = .entry :: (m.body.map .stmt ++ [.exit]) := by
  rw [nodes_of_graph h, nodes_isolated, distinct_of_nodup hbody, List.cons_append]

theorem getElem?_nodes (h : m.graph = .ok g) (hbody : m.body.Nodup) (hj : j ≤ m.body.length) :
    g.nodes[j + 1]? = some (m.nodeAt j) := by
  rw [nodes_of_nodup h hbody, List.getElem?_cons_succ]
  rcases Nat.lt_or_eq_of_le hj with hj | rfl
  · rw [List.getElem?_append_left (by rwa [List.length_map]), List.getElem?_map,
      List.getElem?_eq_getElem hj, Option.map_some, nodeAt_of_getElem? (List.getElem?_eq_getElem hj)]
  · rw [List.getElem?_append_right (Nat.le_of_eq (List.length_map _)), List.length_map, Nat.sub_self,
      List.getElem?_cons_zero, nodeAt_of_length_le (Nat.le_refl _)]

theorem idxOf_nodeAt (h : m.graph = .ok g) (hbody : m.body.Nodup) (hj : j ≤ m.body.length) :
    g.nodes.idxOf (m.nodeAt j) = j + 1 := by
  obtain ⟨hlt, hget⟩ := List.getElem?_eq_some_iff.1 (getElem?_nodes h hbody hj)
  rw [← hget]
  exact g.nodup.idxOf_getElem _ hlt

theorem forward_of_graph (h : m.graph = .ok g) (hbody : m.body.Nodup) (hm : m.JumpsForward) : g.Forward where
  head := ⟨_, by rw [nodes_of_nodup h hbody, entry_of_graph h]⟩
  edge e he := by
    rcases (links_iff_follows h).1 ⟨e, he, rfl, rfl⟩ with ⟨hsrc, hdst⟩ | ⟨i, s, j, hs, hsrc, hfollows, hdst⟩
    · rw [hsrc, hdst, idxOf_nodeAt h hbody (Nat.zero_le _), nodes_of_nodup h hbody, List.idxOf_cons_self]
      exact Nat.succ_pos 0
    · obtain ⟨hlt, hj⟩ := hm.lt_of_follows hs hfollows
      rw [hsrc, hdst, ← nodeAt_of_getElem? hs, idxOf_nodeAt h hbody hj,
        idxOf_nodeAt h hbody (Nat.le_of_lt (Nat.lt_of_lt_of_le hlt hj))]
      exact Nat.succ_lt_succ hlt

end Dataflow.Method
