import Dataflow.Proofs.Method.Edges
import Dataflow.Proofs.Worklist.Detour

/-!
# Inserting a statement

A new `nop` at any position of a method moves the later positions on by one and leaves every label where
it was. Control that came to the position now comes to the `nop` first; a jump to a label there does not.
-/

namespace Dataflow.Method

/-- The method with a statement inserted at a position. -/
def insert (m : Method) (i : Nat) (s : Stmt) : Method := { m with body := m.body.insertIdx i s }

/-- Where a position comes to lie if something is inserted at position `i`. -/
def shift (i j : Nat) : Nat := if j < i then j else j + 1

variable {m : Method} {g g' : Graph Node} {i j : Nat} {s r : Stmt} {a b n : Node}

theorem shift_zero (h : i ≠ 0) : shift i 0 = 0 := if_pos (Nat.pos_of_ne_zero h)

theorem shift_succ (h : j + 1 ≠ i) : shift i (j + 1) = shift i j + 1 := by
  unfold shift
  split
  · rw [if_pos (by omega)]
  · rw [if_neg (by omega)]

theorem shift_of_succ_eq (h : j + 1 = i) : shift i j + 1 = i := by
  rw [shift, if_pos (by omega), h]

theorem exists_shift (h : j ≠ i) : ∃ k, j = shift i k := by
  by_cases hlt : j < i
  · exact ⟨j, (if_pos hlt).symm⟩
  · refine ⟨j - 1, ?_⟩
    rw [shift, if_neg (by omega)]
    omega

/-! ## Positions and labels -/

theorem getElem?_insert_self (hi : i ≤ m.body.length) : (m.insert i s).body[i]? = some s := by
  rw [insert, List.getElem?_insertIdx_self, if_pos hi]

theorem getElem?_insert_shift : (m.insert i s).body[shift i j]? = m.body[j]? := by
  unfold shift
  split
  · next h => exact List.getElem?_insertIdx_of_lt h
  · next h => exact List.getElem?_insertIdx_of_gt (by omega)

theorem nodeAt_insert_self (hi : i ≤ m.body.length) : (m.insert i s).nodeAt i = .stmt s :=
  nodeAt_of_getElem? (getElem?_insert_self hi)

theorem nodeAt_insert_shift : (m.insert i s).nodeAt (shift i j) = m.nodeAt j := by
  simp only [nodeAt, getElem?_insert_shift]

theorem find?_reverse_insertIdx {p : Stmt → Bool} (h : p s = false) (l : List Stmt) (i : Nat) :
    (l.insertIdx i s).reverse.find? p = l.reverse.find? p := by
  induction l generalizing i with
  | nil => cases i with
    | zero => simp [h]
    | succ i => rfl
  | cons r l ih => cases i with
    | zero => rw [List.insertIdx_zero, List.reverse_cons, List.find?_append]; simp [h]
    | succ i =>
        rw [List.insertIdx_succ_cons, List.reverse_cons, List.reverse_cons, List.find?_append,
          List.find?_append, ih]

theorem label?_insert (hs : s.instr = .nop) (l : String) : (m.insert i s).label? l = m.label? l :=
  find?_reverse_insertIdx (by simp [hs, Instr.labelName?]) m.body i

theorem exists_graph_insert (hs : s.instr = .nop) (hi : i ≤ m.body.length) (h : m.graph = .ok g) :
    ∃ g', (m.insert i s).graph = .ok g' := by
  rw [exists_graph_iff]
  intro r hr l hl
  rw [label?_insert hs]
  rcases (List.mem_insertIdx hi).1 hr with rfl | hr
  · rw [hs] at hl
    cases hl
  · exact exists_graph_iff.1 ⟨g, h⟩ r hr l hl

/-! ## Control -/

theorem nodeAt_insert_zero (hi : i ≤ m.body.length) :
    (m.insert i s).nodeAt 0 = m.nodeAt 0 ∨ (m.insert i s).nodeAt 0 = .stmt s ∧ m.nodeAt 0 = m.nodeAt i := by
  by_cases h : i = 0
  · subst h
    exact .inr ⟨nodeAt_insert_self hi, rfl⟩
  · left
    have hzero := nodeAt_insert_shift (m := m) (s := s) (i := i) (j := 0)
    rwa [shift_zero h] at hzero

theorem nodeAt_insert_succ (hi : i ≤ m.body.length) :
    (m.insert i s).nodeAt (shift i j + 1) = m.nodeAt (j + 1) ∨
      (m.insert i s).nodeAt (shift i j + 1) = .stmt s ∧ m.nodeAt (j + 1) = m.nodeAt i := by
  by_cases h : j + 1 = i
  · right
    rw [shift_of_succ_eq h, h]
    exact ⟨nodeAt_insert_self hi, rfl⟩
  · left
    rw [← shift_succ h, nodeAt_insert_shift]

theorem Leads.insert (hs : s.instr = .nop) (hi : i ≤ m.body.length) (h : m.Leads j r n) :
    (m.insert i s).Leads (shift i j) r n ∨
      n = m.nodeAt i ∧ (m.insert i s).Leads (shift i j) r (.stmt s) := by
  cases h with
  | jump hl ht => exact .inl (.jump hl ((label?_insert hs _).trans ht))
  | next hf =>
      have hnext : (m.insert i s).Leads (shift i j) r _ := .next hf
      rcases nodeAt_insert_succ (s := s) (j := j) hi with hsame | ⟨hnop, heq⟩
      · exact .inl (hsame ▸ hnext)
      · exact .inr ⟨heq, hnop ▸ hnext⟩
  | ret hr => exact .inl (.ret hr)

theorem Leads.of_insert (hs : s.instr = .nop) (hi : i ≤ m.body.length)
    (h : (m.insert i s).Leads (shift i j) r n) :
    m.Leads j r n ∨ n = .stmt s ∧ m.Leads j r (m.nodeAt i) := by
  cases h with
  | jump hl ht => exact .inl (.jump hl ((label?_insert hs _).symm.trans ht))
  | next hf =>
      have hnext : m.Leads j r (m.nodeAt (j + 1)) := .next hf
      rcases nodeAt_insert_succ (s := s) (j := j) hi with hsame | ⟨hnop, heq⟩
      · exact .inl (hsame ▸ hnext)
      · exact .inr ⟨hnop, heq ▸ hnext⟩
  | ret hr => exact .inl (.ret hr)

/-! ## The graph -/

theorem links_insert (hs : s.instr = .nop) (hi : i ≤ m.body.length) (h : m.graph = .ok g)
    (h' : (m.insert i s).graph = .ok g') (hab : g.Links a b) :
    g'.Links a b ∨ b = m.nodeAt i ∧ g'.Links a (.stmt s) := by
  rcases (edge_iff h).1 hab with ⟨rfl, rfl⟩ | ⟨j, r, hr, rfl, hl⟩
  · have hstart : g'.Links .entry _ := (edge_iff h').2 (.inl ⟨rfl, rfl⟩)
    rcases nodeAt_insert_zero (s := s) hi with hsame | ⟨hnop, heq⟩
    · exact .inl (hsame ▸ hstart)
    · exact .inr ⟨heq, hnop ▸ hstart⟩
  · have hr' : (m.insert i s).body[shift i j]? = some r := getElem?_insert_shift.trans hr
    rcases hl.insert hs hi with hl' | ⟨rfl, hl'⟩
    · exact .inl ((edge_iff h').2 (.inr ⟨shift i j, r, hr', rfl, hl'⟩))
    · exact .inr ⟨rfl, (edge_iff h').2 (.inr ⟨shift i j, r, hr', rfl, hl'⟩)⟩

theorem leads_nop (hs : s.instr = .nop) : (m.insert i s).Leads i s n ↔ n = m.nodeAt i := by
  have hshift : shift i i = i + 1 := if_neg (Nat.lt_irrefl i)
  rw [leads_iff, ← hshift, nodeAt_insert_shift]
  simp [hs, Instr.jump?, Instr.fallsThrough, Instr.returns]

theorem links_of_insert (hs : s.instr = .nop) (hi : i ≤ m.body.length) (h : m.graph = .ok g)
    (h' : (m.insert i s).graph = .ok g') (hab : g'.Links a b) :
    g.Links a b ∨ (b = .stmt s ∧ g.Links a (m.nodeAt i)) ∨ a = .stmt s ∧ b = m.nodeAt i := by
  rcases (edge_iff h').1 hab with ⟨rfl, rfl⟩ | ⟨j, r, hr, rfl, hl⟩
  · have hstart : g.Links .entry (m.nodeAt 0) := (edge_iff h).2 (.inl ⟨rfl, rfl⟩)
    rcases nodeAt_insert_zero (s := s) hi with hsame | ⟨hnop, heq⟩
    · exact .inl (hsame ▸ hstart)
    · exact .inr (.inl ⟨hnop, heq ▸ hstart⟩)
  · by_cases hj : j = i
    · subst hj
      cases hr.symm.trans (getElem?_insert_self hi)
      exact .inr (.inr ⟨rfl, (leads_nop hs).1 hl⟩)
    · obtain ⟨k, rfl⟩ := exists_shift hj
      have hr' : m.body[k]? = some r := getElem?_insert_shift.symm.trans hr
      rcases hl.of_insert hs hi with hl' | ⟨rfl, hl'⟩
      · exact .inl ((edge_iff h).2 (.inr ⟨k, r, hr', rfl, hl'⟩))
      · exact .inr (.inl ⟨rfl, (edge_iff h).2 (.inr ⟨k, r, hr', rfl, hl'⟩)⟩)

theorem mem_nodes_insert (hi : i ≤ m.body.length) (h : m.graph = .ok g)
    (h' : (m.insert i s).graph = .ok g') : n ∈ g'.nodes ↔ n ∈ g.nodes ∨ n = .stmt s := by
  rw [mem_nodes_iff h, mem_nodes_iff h', or_assoc]
  refine or_congr_right ⟨?_, ?_⟩
  · rintro ⟨j, rfl⟩
    by_cases hj : j = i
    · subst hj
      exact .inr (nodeAt_insert_self hi)
    · obtain ⟨k, rfl⟩ := exists_shift hj
      exact .inl ⟨k, nodeAt_insert_shift⟩
  · rintro (⟨j, rfl⟩ | rfl)
    · exact ⟨shift i j, nodeAt_insert_shift.symm⟩
    · exact ⟨i, (nodeAt_insert_self hi).symm⟩

theorem detour_insert (hs : s.instr = .nop) (hi : i ≤ m.body.length) (hfresh : s ∉ m.body)
    (h : m.graph = .ok g) (h' : (m.insert i s).graph = .ok g') :
    g.Detour g' (.stmt s) (m.nodeAt i) where
  entry := (entry_of_graph h').trans (entry_of_graph h).symm
  nodes _ := mem_nodes_insert hi h h'
  fresh hmem := hfresh ((stmt_mem_nodes h).1 hmem)
  target_mem := nodeAt_mem_nodes h i
  leaves := (edge_iff h').2 (.inr ⟨i, s, getElem?_insert_self hi, rfl, (leads_nop hs).2 rfl⟩)
  links _ _ := links_insert hs hi h h'
  of_links _ _ := links_of_insert hs hi h h'

end Dataflow.Method
