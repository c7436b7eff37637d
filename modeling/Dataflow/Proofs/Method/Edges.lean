import Dataflow.Method.Flow
import Dataflow.Proofs.Except
import Dataflow.Proofs.Graph.Neighbours

/-!
# The edges of a method

The flow graph has an edge exactly where control may pass: into the first position, and from each
position to the label that its statement may jump to, to the next position, or to the exit.
-/

namespace Dataflow

/-- The label that an instruction may jump to. -/
def Instr.jump? : Instr → Option String
  | branch _ l => some l
  | goto l => some l
  | _ => none

/-- Whether control may pass on to the next position. -/
def Instr.fallsThrough : Instr → Bool
  | goto _ | ret _ => false
  | _ => true

/-- Whether control may pass straight to the exit. -/
def Instr.returns : Instr → Bool
  | ret _ => true
  | _ => false

namespace Method

/-- Control may pass from position `i`, where `s` stands, to the node. -/
inductive Leads (m : Method) (i : Nat) (s : Stmt) : Node → Prop
  | jump {l : String} {t : Stmt} : s.instr.jump? = some l → m.label? l = some t → Leads m i s (.stmt t)
  | next : s.instr.fallsThrough = true → Leads m i s (m.nodeAt (i + 1))
  | ret : s.instr.returns = true → Leads m i s .exit

variable {m : Method} {g : Graph Node} {i : Nat} {s : Stmt} {es : List (Edge Node)} {n : Node}

theorem nodeAt_of_getElem? (h : m.body[i]? = some s) : m.nodeAt i = .stmt s := by
  simp only [nodeAt, h]

theorem nodeAt_ne_entry : m.nodeAt i ≠ .entry := by
  unfold nodeAt; split <;> simp

theorem nodeAt_of_length_le (h : m.body.length ≤ i) : m.nodeAt i = .exit := by
  simp [nodeAt, List.getElem?_eq_none h]

theorem exists_nodeAt_iff : (∃ i, n = m.nodeAt i) ↔ n = .exit ∨ ∃ s ∈ m.body, n = .stmt s := by
  constructor
  · rintro ⟨i, rfl⟩
    unfold nodeAt
    split
    · next s hs => exact .inr ⟨s, List.mem_of_getElem? hs, rfl⟩
    · exact .inl rfl
  · rintro (rfl | ⟨s, hs, rfl⟩)
    · exact ⟨m.body.length, (nodeAt_of_length_le (Nat.le_refl _)).symm⟩
    · obtain ⟨i, hi⟩ := List.mem_iff_getElem?.1 hs
      exact ⟨i, (nodeAt_of_getElem? hi).symm⟩

theorem leads_iff : m.Leads i s n ↔
    (∃ l t, s.instr.jump? = some l ∧ m.label? l = some t ∧ n = .stmt t) ∨
      (s.instr.fallsThrough = true ∧ n = m.nodeAt (i + 1)) ∨ s.instr.returns = true ∧ n = .exit := by
  constructor
  · intro h
    cases h with
    | jump hj ht => exact .inl ⟨_, _, hj, ht, rfl⟩
    | next hf => exact .inr (.inl ⟨hf, rfl⟩)
    | ret hr => exact .inr (.inr ⟨hr, rfl⟩)
  · rintro (⟨l, t, hj, ht, rfl⟩ | ⟨hf, rfl⟩ | ⟨hr, rfl⟩)
    · exact .jump hj ht
    · exact .next hf
    · exact .ret hr

theorem Leads.ne_entry (h : m.Leads i s n) : n ≠ .entry := by
  cases h with
  | jump _ _ => simp
  | next _ => exact nodeAt_ne_entry
  | ret _ => simp

theorem Leads.exists_nodeAt (h : m.Leads i s n) : ∃ j, n = m.nodeAt j := by
  cases h with
  | @jump l t _ ht =>
      have hmem : t ∈ m.body := List.mem_reverse.1 (List.mem_of_find?_eq_some ht)
      exact exists_nodeAt_iff.2 (.inr ⟨t, hmem, rfl⟩)
  | next _ => exact ⟨i + 1, rfl⟩
  | ret _ => exact exists_nodeAt_iff.2 (.inl rfl)

/-! ## The edges of one position -/

theorem target_eq_ok {l : String} : m.target s l = .ok n ↔ ∃ t, m.label? l = some t ∧ n = .stmt t := by
  unfold target
  split
  · next t ht => simp [ht, eq_comm]
  · next ht => simp [ht]

theorem edgesFrom_src (h : m.edgesFrom i s = .ok es) {e : Edge Node} (he : e ∈ es) :
    e.src = .stmt s := by
  unfold edgesFrom at h
  split at h
  · obtain ⟨t, -, h⟩ := bind_eq_ok.1 h
    cases h
    simp only [List.mem_cons, List.not_mem_nil, or_false] at he
    rcases he with rfl | rfl <;> rfl
  · obtain ⟨t, -, h⟩ := bind_eq_ok.1 h
    cases h
    rw [List.mem_singleton.1 he]
  · cases h
    rw [List.mem_singleton.1 he]
  · cases h
    rw [List.mem_singleton.1 he]

theorem exists_mem_edgesFrom (h : m.edgesFrom i s = .ok es) :
    (∃ e ∈ es, e.dst = n) ↔ m.Leads i s n := by
  rw [leads_iff]
  unfold edgesFrom at h
  split at h
  · next c l hi =>
      obtain ⟨n', hn, h⟩ := bind_eq_ok.1 h
      obtain ⟨t, ht, rfl⟩ := target_eq_ok.1 hn
      cases h
      simp [hi, ht, Instr.jump?, Instr.fallsThrough, Instr.returns, eq_comm]
  · next l hi =>
      obtain ⟨n', hn, h⟩ := bind_eq_ok.1 h
      obtain ⟨t, ht, rfl⟩ := target_eq_ok.1 hn
      cases h
      simp [hi, ht, Instr.jump?, Instr.fallsThrough, Instr.returns, eq_comm]
  · next v hi =>
      cases h
      simp [hi, Instr.jump?, Instr.fallsThrough, Instr.returns, eq_comm]
  · next hbranch hgoto hret =>
      cases h
      cases hi : s.instr with
      | branch c l => exact absurd hi (hbranch c l)
      | goto l => exact absurd hi (hgoto l)
      | ret v => exact absurd hi (hret v)
      | _ => simp [Instr.jump?, Instr.fallsThrough, Instr.returns, eq_comm]

/-! ## The edges of all positions -/

theorem edgesFromAll_cons {ss : List Stmt} (h : m.edgesFromAll i (s :: ss) = .ok es) :
    ∃ es₁ es₂, m.edgesFrom i s = .ok es₁ ∧ m.edgesFromAll (i + 1) ss = .ok es₂ ∧ es = es₁ ++ es₂ := by
  obtain ⟨es₁, h₁, h⟩ := bind_eq_ok.1 h
  obtain ⟨es₂, h₂, h⟩ := bind_eq_ok.1 h
  cases h
  exact ⟨es₁, es₂, h₁, h₂, rfl⟩

theorem edgesFrom_of_edgesFromAll {ss : List Stmt} (h : m.edgesFromAll i ss = .ok es) {j : Nat}
    (hs : ss[j]? = some s) : ∃ es', m.edgesFrom (i + j) s = .ok es' ∧ ∀ e ∈ es', e ∈ es := by
  induction ss generalizing i j es with
  | nil => simp at hs
  | cons r ss ih =>
      obtain ⟨es₁, es₂, h₁, h₂, rfl⟩ := edgesFromAll_cons h
      cases j with
      | zero =>
          rw [List.getElem?_cons_zero, Option.some.injEq] at hs
          subst hs
          exact ⟨es₁, h₁, fun e => List.mem_append_left es₂⟩
      | succ j =>
          obtain ⟨es', h', hsub⟩ := ih h₂ (by simpa using hs)
          rw [Nat.add_right_comm] at h'
          exact ⟨es', h', fun e he => List.mem_append_right es₁ (hsub e he)⟩

theorem mem_edgesFromAll {ss : List Stmt} (h : m.edgesFromAll i ss = .ok es) {e : Edge Node}
    (he : e ∈ es) : ∃ j s es', ss[j]? = some s ∧ m.edgesFrom (i + j) s = .ok es' ∧ e ∈ es' := by
  induction ss generalizing i es with
  | nil => cases h; cases he
  | cons r ss ih =>
      obtain ⟨es₁, es₂, h₁, h₂, rfl⟩ := edgesFromAll_cons h
      rcases List.mem_append.1 he with he | he
      · exact ⟨0, r, es₁, rfl, h₁, he⟩
      · obtain ⟨j, s, es', hs, h', he'⟩ := ih h₂ he
        exact ⟨j + 1, s, es', by simpa using hs, by rwa [← Nat.add_right_comm] at h', he'⟩

/-! ## The graph -/

theorem graph_eq_ok (h : m.graph = .ok g) :
    ∃ es, m.edgesFromAll 0 m.body = .ok es ∧
      g = (⟨.entry, m.nodeAt 0, .entry⟩ :: es).foldl Graph.addEdge m.isolated := by
  obtain ⟨es, hes, h⟩ := bind_eq_ok.1 h
  cases h
  exact ⟨es, hes, rfl⟩

theorem exists_target_iff {α : Type} {f : Node → α} {l : String} :
    (∃ a, (do let t ← m.target s l; return f t) = .ok a) ↔ ∃ t, m.label? l = some t := by
  constructor
  · rintro ⟨a, h⟩
    obtain ⟨n, hn, -⟩ := bind_eq_ok.1 h
    obtain ⟨t, ht, -⟩ := target_eq_ok.1 hn
    exact ⟨t, ht⟩
  · rintro ⟨t, ht⟩
    exact ⟨f (.stmt t), bind_eq_ok.2 ⟨.stmt t, target_eq_ok.2 ⟨t, ht, rfl⟩, rfl⟩⟩

theorem exists_edgesFrom_iff :
    (∃ es, m.edgesFrom i s = .ok es) ↔ ∀ l, s.instr.jump? = some l → ∃ t, m.label? l = some t := by
  unfold edgesFrom
  split
  · next c l hi =>
      rw [exists_target_iff]
      simp [hi, Instr.jump?]
  · next l hi =>
      rw [exists_target_iff]
      simp [hi, Instr.jump?]
  · next v hi => simp [hi, Instr.jump?]
  · next hbranch hgoto hret =>
      cases hi : s.instr with
      | branch c l => exact absurd hi (hbranch c l)
      | goto l => exact absurd hi (hgoto l)
      | _ => simp [Instr.jump?]

theorem exists_edgesFromAll_iff {ss : List Stmt} :
    (∃ es, m.edgesFromAll i ss = .ok es) ↔
      ∀ s ∈ ss, ∀ l, s.instr.jump? = some l → ∃ t, m.label? l = some t := by
  induction ss generalizing i with
  | nil => simp [edgesFromAll]
  | cons s ss ih =>
      rw [List.forall_mem_cons, ← exists_edgesFrom_iff (i := i), ← ih (i := i + 1)]
      constructor
      · rintro ⟨es, h⟩
        obtain ⟨es₁, es₂, h₁, h₂, -⟩ := edgesFromAll_cons h
        exact ⟨⟨es₁, h₁⟩, es₂, h₂⟩
      · rintro ⟨⟨es₁, h₁⟩, es₂, h₂⟩
        exact ⟨es₁ ++ es₂, bind_eq_ok.2 ⟨es₁, h₁, bind_eq_ok.2 ⟨es₂, h₂, rfl⟩⟩⟩

theorem exists_graph_iff :
    (∃ g, m.graph = .ok g) ↔
      ∀ s ∈ m.body, ∀ l, s.instr.jump? = some l → ∃ t, m.label? l = some t := by
  rw [← exists_edgesFromAll_iff (i := 0)]
  constructor
  · rintro ⟨g, h⟩
    obtain ⟨es, hes, -⟩ := graph_eq_ok h
    exact ⟨es, hes⟩
  · rintro ⟨es, hes⟩
    exact ⟨_, bind_eq_ok.2 ⟨es, hes, rfl⟩⟩

theorem isolated_entry_edges (m : Method) : m.isolated.entry = .entry ∧ m.isolated.edges = [] := by
  rw [isolated, Graph.entry_addNode, Graph.edges_addNode]
  exact ⟨Graph.foldl_addNode_eq Graph.entry_addNode Node.stmt m.body _,
    Graph.foldl_addNode_eq Graph.edges_addNode Node.stmt m.body _⟩

theorem mem_isolated : n ∈ m.isolated.nodes ↔ n = .entry ∨ ∃ i, n = m.nodeAt i := by
  rw [isolated, Graph.mem_addNode, Graph.mem_foldl_addNode, exists_nodeAt_iff, or_assoc,
    or_comm (b := n = .exit)]
  exact or_congr_left List.mem_singleton

theorem nodes_of_graph (h : m.graph = .ok g) : g.nodes = m.isolated.nodes := by
  obtain ⟨es, hes, rfl⟩ := graph_eq_ok h
  refine Graph.nodes_foldl_addEdge fun e he => ?_
  rw [mem_isolated, mem_isolated]
  rcases List.mem_cons.1 he with rfl | he
  · exact ⟨.inl rfl, .inr ⟨0, rfl⟩⟩
  · obtain ⟨j, s, es', hs, hes', he'⟩ := mem_edgesFromAll hes he
    have hl := (exists_mem_edgesFrom hes').1 ⟨e, he', rfl⟩
    exact ⟨.inr ⟨j, (edgesFrom_src hes' he').trans (nodeAt_of_getElem? hs).symm⟩, .inr hl.exists_nodeAt⟩

theorem mem_nodes_iff (h : m.graph = .ok g) : n ∈ g.nodes ↔ n = .entry ∨ ∃ i, n = m.nodeAt i := by
  rw [nodes_of_graph h, mem_isolated]

theorem nodeAt_mem_nodes (h : m.graph = .ok g) (i : Nat) : m.nodeAt i ∈ g.nodes :=
  (mem_nodes_iff h).2 (.inr ⟨i, rfl⟩)

theorem stmt_mem_nodes (h : m.graph = .ok g) {s : Stmt} : Node.stmt s ∈ g.nodes ↔ s ∈ m.body := by
  rw [mem_nodes_iff h, exists_nodeAt_iff]
  simp

theorem entry_of_graph (h : m.graph = .ok g) : g.entry = .entry := by
  obtain ⟨es, -, rfl⟩ := graph_eq_ok h
  rw [Graph.entry_foldl_addEdge, m.isolated_entry_edges.1]

theorem edge_iff (h : m.graph = .ok g) {u v : Node} :
    (∃ e ∈ g.edges, e.src = u ∧ e.dst = v) ↔
      u = .entry ∧ v = m.nodeAt 0 ∨
        ∃ i s, m.body[i]? = some s ∧ u = .stmt s ∧ m.Leads i s v := by
  obtain ⟨es, hes, rfl⟩ := graph_eq_ok h
  rw [Graph.edges_foldl_addEdge, m.isolated_entry_edges.2, List.nil_append]
  constructor
  · rintro ⟨e, he, rfl, rfl⟩
    rcases List.mem_cons.1 he with rfl | he
    · exact .inl ⟨rfl, rfl⟩
    · obtain ⟨i, s, es', hs, hes', he'⟩ := mem_edgesFromAll hes he
      rw [Nat.zero_add] at hes'
      exact .inr ⟨i, s, hs, edgesFrom_src hes' he', (exists_mem_edgesFrom hes').1 ⟨e, he', rfl⟩⟩
  · rintro (⟨rfl, rfl⟩ | ⟨i, s, hs, rfl, hl⟩)
    · exact ⟨_, List.mem_cons_self, rfl, rfl⟩
    · obtain ⟨es', hes', hsub⟩ := edgesFrom_of_edgesFromAll hes hs
      rw [Nat.zero_add] at hes'
      obtain ⟨e, he, rfl⟩ := (exists_mem_edgesFrom hes').2 hl
      exact ⟨e, List.mem_cons_of_mem _ (hsub e he), edgesFrom_src hes' he, rfl⟩

theorem dst_ne_entry (h : m.graph = .ok g) : ∀ e ∈ g.edges, e.dst ≠ g.entry := by
  intro e he
  rw [entry_of_graph h]
  rcases (edge_iff h).1 ⟨e, he, rfl, rfl⟩ with ⟨-, hd⟩ | ⟨i, s, -, -, hl⟩
  · rw [hd]
    exact nodeAt_ne_entry
  · exact hl.ne_entry

end Method

end Dataflow
