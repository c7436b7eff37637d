import Dataflow.Proofs.Method.Edges

/-!
# Graphs and positions

The flow graph of a method is its positions, with the positions of one statement drawn together. It
exists exactly if every jump has its label, it has an edge exactly where control may pass from one
position to another, and it has one edge for every such passage.
-/

namespace Dataflow

/-- Whether control may pass both to a label and to the next position. -/
def Instr.isBranch : Instr → Bool
  | branch .. => true
  | _ => false

namespace Method

def HasLabel (m : Method) (l : String) : Prop := ∃ t ∈ m.body, t.instr.labelName? = some l

/-- The last label with this name stands at position `j`. -/
structure LabelAt (m : Method) (l : String) (j : Nat) : Prop where
  here : ∃ t, m.body[j]? = some t ∧ t.instr.labelName? = some l
  last : ∀ k t, j < k → m.body[k]? = some t → t.instr.labelName? ≠ some l

/-- Control may pass from position `i`, where `s` stands, to position `j`. The position past the last
one is the exit. -/
def Follows (m : Method) (i : Nat) (s : Stmt) (j : Nat) : Prop :=
  match s.instr with
  | .branch _ l => m.LabelAt l j ∨ j = i + 1
  | .goto l => m.LabelAt l j
  | .ret _ => j = m.body.length
  | _ => j = i + 1

/-- The error is about the first jump whose label the method does not have. -/
structure FirstMiss (m : Method) (e : MissingLabel) : Prop where
  method : e.method = m.name
  jump : ∃ i s, m.body[i]? = some s ∧ s.instr.jump? = some e.label ∧ ¬m.HasLabel e.label ∧
    e.index = m.index s ∧
    ∀ (k : Nat) (r : Stmt) (l : String), k < i → m.body[k]? = some r → r.instr.jump? = some l →
      m.HasLabel l

/-- The graph is that of the positions of the method. -/
structure Realizes (m : Method) (g : Graph Node) : Prop where
  entry : g.entry = .entry
  exit : g.exit = .exit
  nodes : g.nodes = .entry :: (distinct m.body).map .stmt ++ [.exit]
  links : ∀ u v, g.Links u v ↔ u = .entry ∧ v = m.nodeAt 0 ∨
    ∃ i s j, m.body[i]? = some s ∧ u = .stmt s ∧ m.Follows i s j ∧ v = m.nodeAt j
  edges : g.edges.length = 1 + m.body.length + m.body.countP (·.instr.isBranch)
  into_entry : ∀ u, ¬g.Links u .entry
  out_of_exit : ∀ v, ¬g.Links .exit v
  out : ∀ u ∈ g.nodes, u ≠ .exit → ∃ v, g.Links u v

variable {m : Method} {g : Graph Node} {i j : Nat} {s t : Stmt} {l : String} {n : Node}
  {es : List (Edge Node)} {e : MissingLabel}

/-! ## Labels -/

theorem label?_eq_some_iff : m.label? l = some t ↔ ∃ j, m.LabelAt l j ∧ m.body[j]? = some t := by
  rw [label?, List.find?_eq_some_iff_append]
  constructor
  · rintro ⟨hl, as, bs, hbody, has⟩
    have hbody : m.body = bs.reverse ++ t :: as.reverse := by
      simpa using congrArg List.reverse hbody
    have hhere : m.body[bs.length]? = some t := by simp [hbody]
    refine ⟨bs.length, ⟨⟨t, hhere, by simpa using hl⟩, ?_⟩, hhere⟩
    intro k r hk hr
    have hmem : r ∈ as := by
      rw [hbody, List.getElem?_append_right (by simpa using Nat.le_of_lt hk), List.length_reverse] at hr
      obtain ⟨d, hd⟩ := Nat.exists_eq_add_of_lt hk
      rw [show k - bs.length = d + 1 by omega, List.getElem?_cons_succ] at hr
      exact List.mem_reverse.1 (List.mem_of_getElem? hr)
    simpa using has r hmem
  · rintro ⟨j, ⟨⟨t', ht', hl⟩, hlast⟩, ht⟩
    cases ht.symm.trans ht'
    obtain ⟨hj, rfl⟩ := List.getElem?_eq_some_iff.1 ht
    refine ⟨by simpa using hl, (m.body.drop (j + 1)).reverse, (m.body.take j).reverse, ?_, ?_⟩
    · rw [← List.reverse_inj]
      simp
    · intro r hr
      obtain ⟨k, hk⟩ := List.mem_iff_getElem?.1 (List.mem_reverse.1 hr)
      rw [List.getElem?_drop] at hk
      simpa using hlast (j + 1 + k) r (by omega) hk

theorem exists_label?_iff : (∃ t, m.label? l = some t) ↔ m.HasLabel l := by
  rw [← Option.isSome_iff_exists, label?, List.find?_isSome]
  simp [HasLabel]

theorem leads_iff_follows : m.Leads i s n ↔ ∃ j, m.Follows i s j ∧ n = m.nodeAt j := by
  have hlabel : ∀ l, (∃ t, m.label? l = some t ∧ n = .stmt t) ↔ ∃ j, m.LabelAt l j ∧ n = m.nodeAt j := by
    intro l
    constructor
    · rintro ⟨t, ht, rfl⟩
      obtain ⟨j, hj, hbody⟩ := label?_eq_some_iff.1 ht
      exact ⟨j, hj, (nodeAt_of_getElem? hbody).symm⟩
    · rintro ⟨j, hj, rfl⟩
      obtain ⟨t, ht, -⟩ := hj.here
      exact ⟨t, label?_eq_some_iff.2 ⟨j, hj, ht⟩, nodeAt_of_getElem? ht⟩
  rw [leads_iff]
  unfold Follows
  cases hi : s.instr with
  | branch c l =>
      simp [Instr.jump?, Instr.fallsThrough, Instr.returns, hlabel, or_and_right, exists_or]
  | goto l => simp [Instr.jump?, Instr.fallsThrough, Instr.returns, hlabel]
  | ret v =>
      simp [Instr.jump?, Instr.fallsThrough, Instr.returns, nodeAt_of_length_le (Nat.le_refl _)]
  | _ => simp [Instr.jump?, Instr.fallsThrough, Instr.returns]

theorem exists_leads (h : m.graph = .ok g) (hs : m.body[i]? = some s) : ∃ n, m.Leads i s n := by
  cases hj : s.instr.jump? with
  | some l =>
      obtain ⟨t, ht⟩ := exists_graph_iff.1 ⟨g, h⟩ s (List.mem_of_getElem? hs) l hj
      exact ⟨.stmt t, .jump hj ht⟩
  | none =>
      cases hi : s.instr with
      | branch c l => simp [hi, Instr.jump?] at hj
      | goto l => simp [hi, Instr.jump?] at hj
      | ret v => exact ⟨.exit, .ret (by simp [hi, Instr.returns])⟩
      | _ => exact ⟨_, .next (by simp [hi, Instr.fallsThrough])⟩

/-! ## The first missing label -/

theorem target_eq_error (h : m.target s l = .error e) :
    e = ⟨m.name, m.index s, l⟩ ∧ ¬m.HasLabel l := by
  unfold target at h
  split at h
  · cases h
  · next hl =>
      cases h
      refine ⟨rfl, fun hhas => ?_⟩
      obtain ⟨t, ht⟩ := exists_label?_iff.2 hhas
      rw [hl] at ht
      cases ht

theorem edgesFrom_eq_error (h : m.edgesFrom i s = .error e) :
    s.instr.jump? = some e.label ∧ e = ⟨m.name, m.index s, e.label⟩ ∧ ¬m.HasLabel e.label := by
  unfold edgesFrom at h
  split at h
  · next c l hi =>
      rcases bind_eq_error.1 h with h | ⟨_, _, h⟩
      · obtain ⟨rfl, hl⟩ := target_eq_error h
        exact ⟨by rw [hi, Instr.jump?], rfl, hl⟩
      · cases h
  · next l hi =>
      rcases bind_eq_error.1 h with h | ⟨_, _, h⟩
      · obtain ⟨rfl, hl⟩ := target_eq_error h
        exact ⟨by rw [hi, Instr.jump?], rfl, hl⟩
      · cases h
  · cases h
  · cases h

theorem edgesFromAll_eq_error {ss : List Stmt} (h : m.edgesFromAll i ss = .error e) :
    ∃ k s, ss[k]? = some s ∧ m.edgesFrom (i + k) s = .error e ∧
      ∀ k' r, k' < k → ss[k']? = some r → ∃ es, m.edgesFrom (i + k') r = .ok es := by
  induction ss generalizing i with
  | nil => cases h
  | cons s ss ih =>
      rcases bind_eq_error.1 h with h | ⟨es, hes, h⟩
      · exact ⟨0, s, rfl, h, fun k' r hk' => absurd hk' (Nat.not_lt_zero k')⟩
      · rcases bind_eq_error.1 h with h | ⟨_, _, h⟩
        · obtain ⟨k, s', hs', herr, hbefore⟩ := ih h
          rw [Nat.add_right_comm] at herr
          refine ⟨k + 1, s', by simpa using hs', herr, ?_⟩
          intro k' r hk' hr
          cases k' with
          | zero =>
              rw [List.getElem?_cons_zero, Option.some.injEq] at hr
              exact ⟨es, hr ▸ hes⟩
          | succ k' =>
              have hok := hbefore k' r (Nat.lt_of_succ_lt_succ hk') (by simpa using hr)
              rwa [Nat.add_right_comm] at hok
        · cases h

theorem firstMiss_of_graph (h : m.graph = .error e) : m.FirstMiss e := by
  rcases bind_eq_error.1 h with h | ⟨_, _, h⟩
  · obtain ⟨i, s, hs, herr, hbefore⟩ := edgesFromAll_eq_error h
    obtain ⟨hj, he, hl⟩ := edgesFrom_eq_error herr
    refine ⟨congrArg MissingLabel.method he, i, s, hs, hj, hl, congrArg MissingLabel.index he, ?_⟩
    intro k r l' hk hr hjump
    exact exists_label?_iff.1 (exists_edgesFrom_iff.1 (hbefore k r hk hr) l' hjump)
  · cases h

/-! ## Counting edges -/

theorem length_edgesFrom (h : m.edgesFrom i s = .ok es) :
    es.length = 1 + if s.instr.isBranch = true then 1 else 0 := by
  unfold edgesFrom at h
  split at h
  · next c l hi =>
      obtain ⟨t, -, h⟩ := bind_eq_ok.1 h
      cases h
      simp [hi, Instr.isBranch]
  · next l hi =>
      obtain ⟨t, -, h⟩ := bind_eq_ok.1 h
      cases h
      simp [hi, Instr.isBranch]
  · next v hi =>
      cases h
      simp [hi, Instr.isBranch]
  · next hbranch hgoto hret =>
      cases h
      cases hi : s.instr with
      | branch c l => exact absurd hi (hbranch c l)
      | _ => simp [Instr.isBranch]

theorem length_edgesFromAll {ss : List Stmt} (h : m.edgesFromAll i ss = .ok es) :
    es.length = ss.length + ss.countP (·.instr.isBranch) := by
  induction ss generalizing i es with
  | nil =>
      cases h
      rfl
  | cons s ss ih =>
      obtain ⟨es₁, es₂, h₁, h₂, rfl⟩ := edgesFromAll_cons h
      rw [List.length_append, length_edgesFrom h₁, ih h₂, List.length_cons, List.countP_cons]
      omega

/-! ## The graph -/

theorem nodes_isolated (m : Method) :
    m.isolated.nodes = .entry :: (distinct m.body).map .stmt ++ [.exit] := by
  rw [isolated, Graph.nodes_addNode, Graph.nodes_foldl_addNode,
    distinct_map fun _ _ => Node.stmt.inj]
  change (if Node.exit ∈ [Node.entry] ++ _ then _ else _) = _
  rw [Graph.start, List.filter_eq_self.2 (by simp), if_neg (by simp)]
  rfl

theorem length_edges (h : m.graph = .ok g) :
    g.edges.length = 1 + m.body.length + m.body.countP (·.instr.isBranch) := by
  obtain ⟨es, hes, rfl⟩ := graph_eq_ok h
  rw [Graph.edges_foldl_addEdge, m.isolated_entry_edges.2, List.nil_append, List.length_cons,
    length_edgesFromAll hes]
  omega

theorem links_iff_follows (h : m.graph = .ok g) {u v : Node} :
    g.Links u v ↔ u = .entry ∧ v = m.nodeAt 0 ∨
      ∃ i s j, m.body[i]? = some s ∧ u = .stmt s ∧ m.Follows i s j ∧ v = m.nodeAt j := by
  simp only [Graph.Links, edge_iff h, leads_iff_follows, exists_and_left]

theorem exists_links (h : m.graph = .ok g) {u : Node} (hu : u ∈ g.nodes) (hne : u ≠ .exit) :
    ∃ v, g.Links u v := by
  rcases (mem_nodes_iff h).1 hu with rfl | ⟨i, rfl⟩
  · exact ⟨_, (edge_iff h).2 (.inl ⟨rfl, rfl⟩)⟩
  · cases hs : m.body[i]? with
    | none => exact absurd (nodeAt_of_length_le (List.getElem?_eq_none_iff.1 hs)) hne
    | some s =>
        obtain ⟨v, hv⟩ := exists_leads h hs
        exact ⟨v, (edge_iff h).2 (.inr ⟨i, s, hs, nodeAt_of_getElem? hs, hv⟩)⟩

theorem realizes_of_graph (h : m.graph = .ok g) : m.Realizes g where
  entry := entry_of_graph h
  exit := by
    obtain ⟨es, -, rfl⟩ := graph_eq_ok h
    rw [Graph.exit_foldl_addEdge, isolated, Graph.exit_addNode]
    exact Graph.foldl_addNode_eq Graph.exit_addNode Node.stmt m.body _
  nodes := (nodes_of_graph h).trans m.nodes_isolated
  links _ _ := links_iff_follows h
  edges := length_edges h
  into_entry u hu := hu.ne_entry (dst_ne_entry h) (entry_of_graph h).symm
  out_of_exit v hv := by
    rcases (edge_iff h).1 hv with ⟨hu, -⟩ | ⟨_, _, -, hu, -⟩
    · cases hu
    · cases hu
  out _ := exists_links h

/-- A method has a flow graph exactly if every jump has its label, and otherwise the first jump without
one is reported. The graph is that of the positions of the method. -/
theorem graph_realizes (m : Method) :
    ((∃ g, m.graph = .ok g) ↔ ∀ s ∈ m.body, ∀ l, s.instr.jump? = some l → m.HasLabel l) ∧
      ((¬∀ s ∈ m.body, ∀ l, s.instr.jump? = some l → m.HasLabel l) →
        ∃ e, m.graph = .error e ∧ m.FirstMiss e) ∧
      ∀ g, m.graph = .ok g → m.Realizes g := by
  have hok : (∃ g, m.graph = .ok g) ↔ ∀ s ∈ m.body, ∀ l, s.instr.jump? = some l → m.HasLabel l := by
    simp only [exists_graph_iff, exists_label?_iff]
  refine ⟨hok, fun hmiss => ?_, fun g => realizes_of_graph⟩
  cases h : m.graph with
  | ok g => exact absurd (hok.1 ⟨g, h⟩) hmiss
  | error e => exact ⟨e, rfl, firstMiss_of_graph h⟩

/-- Two labels with one name, a statement at two positions, and a branch at the end that may jump to the
second label. -/
def relabelled : Method where
  name := "relabelled"
  params := [⟨"p", .prim .int⟩]
  locals := []
  body :=
    let p : Var := ⟨"p", .prim .int⟩
    let down : Stmt := ⟨1, .assign p (.bin .sub (.var p) (.lit 1))⟩
    [⟨0, .label "top"⟩, down, ⟨2, .label "top"⟩, down, ⟨3, .branch (.bin .gt (.var p) (.lit 0)) "top"⟩]

theorem graph_realizes_relabelled :
    (∃ g, relabelled.graph = .ok g ∧ relabelled.Realizes g ∧
      g.succs (relabelled.nodeAt 4) = [relabelled.nodeAt 2, .exit]) ∧
      let lost : Method := { relabelled with body := [⟨0, .nop⟩, ⟨1, .goto "bottom"⟩] }
      ∃ e, lost.graph = .error e ∧ lost.FirstMiss e := by
  refine ⟨⟨_, rfl, (graph_realizes relabelled).2.2 _ rfl, by decide⟩, (graph_realizes _).2.1 ?_⟩
  intro h
  obtain ⟨t, ht, hl⟩ := h ⟨1, .goto "bottom"⟩ (by decide) "bottom" rfl
  revert t
  decide

end Method

end Dataflow
