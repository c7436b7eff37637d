import Dataflow.Proofs.Method.Edges
import Mathlib.Data.List.Forall2

/-!
# Methods with the same control flow

Two methods whose statements pass control on in the same way at every position have the same flow graph,
place by place, if no statement stands twice in either.
-/

namespace Dataflow

/-- By what name control comes to an instruction, and how it passes on. -/
structure Control where
  name? : Option String
  jump? : Option String
  fallsThrough : Bool
  returns : Bool

def Instr.control (i : Instr) : Control := ⟨i.labelName?, i.jump?, i.fallsThrough, i.returns⟩

namespace Method

/-- The nodes at one place of both methods: the entries, the statements at one position, or the exits. -/
inductive Matched (m m' : Method) : Node → Node → Prop
  | entry : Matched m m' .entry .entry
  | pos (i : Nat) : Matched m m' (m.nodeAt i) (m'.nodeAt i)

structure Aligned (m m' : Method) : Prop where
  nodup : m.body.Nodup
  nodup' : m'.body.Nodup
  control : m'.body.map (·.instr.control) = m.body.map (·.instr.control)

/-- The node of the first method that is matched with a node of the second. -/
def counterpart (m m' : Method) : Node → Node
  | .stmt s => m.nodeAt (m'.body.idxOf s)
  | n => n

variable {m m' : Method} {g g' : Graph Node} {i : Nat} {s s' : Stmt} {u v n n' : Node}

/-! ## Matched nodes -/

theorem Matched.symm (h : m.Matched m' n n') : m'.Matched m n' n := by
  cases h with
  | entry => exact .entry
  | pos i => exact .pos i

theorem matched_stmt (h : m.body[i]? = some s) (h' : m'.body[i]? = some s') :
    m.Matched m' (.stmt s) (.stmt s') := by
  rw [← nodeAt_of_getElem? h, ← nodeAt_of_getElem? h']
  exact .pos i

theorem Matched.exists_getElem? (h : m.Matched m' (.stmt s) (.stmt s')) :
    ∃ i : Nat, m.body[i]? = some s ∧ m'.body[i]? = some s' := by
  generalize hn : Node.stmt s = n at h
  generalize hn' : Node.stmt s' = n' at h
  cases h with
  | entry => cases hn
  | pos i =>
      unfold nodeAt at hn hn'
      split at hn
      · next hs =>
          split at hn'
          · next hs' =>
              cases hn
              cases hn'
              exact ⟨i, hs, hs'⟩
          · cases hn'
      · cases hn

theorem Matched.rel {R : Stmt → Stmt → Prop} (h : m.Matched m' (.stmt s) (.stmt s'))
    (hR : List.Forall₂ R m.body m'.body) : s ∈ m.body ∧ s' ∈ m'.body ∧ R s s' := by
  obtain ⟨i, hs, hs'⟩ := h.exists_getElem?
  refine ⟨List.mem_of_getElem? hs, List.mem_of_getElem? hs', ?_⟩
  obtain ⟨hlt, rfl⟩ := List.getElem?_eq_some_iff.1 hs
  obtain ⟨hlt', rfl⟩ := List.getElem?_eq_some_iff.1 hs'
  exact hR.get hlt hlt'

theorem Matched.mem_nodes (h : m.graph = .ok g) (hn : m.Matched m' n n') : n ∈ g.nodes := by
  rw [mem_nodes_iff h]
  cases hn with
  | entry => exact .inl rfl
  | pos i => exact .inr ⟨i, rfl⟩

namespace Aligned

theorem symm (ha : m.Aligned m') : m'.Aligned m := ⟨ha.nodup', ha.nodup, ha.control.symm⟩

theorem length_eq (ha : m.Aligned m') : m'.body.length = m.body.length := by
  simpa using congrArg List.length ha.control

theorem getElem? (ha : m.Aligned m') (h : m.body[i]? = some s) :
    ∃ s', m'.body[i]? = some s' ∧ s'.instr.control = s.instr.control := by
  have hi := congrArg (·[i]?) ha.control
  simpa [h] using hi

theorem of_forall₂ {R : Stmt → Stmt → Prop} (hnodup : m.body.Nodup) (hnodup' : m'.body.Nodup)
    (h : List.Forall₂ R m.body m'.body)
    (hR : ∀ s s', R s s' → s'.instr.control = s.instr.control) : m.Aligned m' := by
  have hmap : ∀ {l l' : List Stmt}, List.Forall₂ R l l' →
      l'.map (·.instr.control) = l.map (·.instr.control) := by
    intro l l' h
    induction h with
    | nil => rfl
    | cons hs _ ih => rw [List.map_cons, List.map_cons, hR _ _ hs, ih]
  exact ⟨hnodup, hnodup', hmap h⟩

theorem counterpart_eq (ha : m.Aligned m') (h : m.Matched m' n n') : m.counterpart m' n' = n := by
  cases h with
  | entry => rfl
  | pos i =>
      cases hs' : m'.body[i]? with
      | some s' =>
          obtain ⟨hlt, rfl⟩ := List.getElem?_eq_some_iff.1 hs'
          rw [nodeAt_of_getElem? hs', counterpart, ha.nodup'.idxOf_getElem i hlt]
      | none =>
          have hlen : m.body.length ≤ i := ha.length_eq ▸ List.getElem?_eq_none_iff.1 hs'
          rw [nodeAt_of_length_le hlen, nodeAt_of_length_le (ha.length_eq ▸ hlen)]
          rfl

/-! ## Matched edges -/

/-- Where a label stands from the end, in terms of the control flow alone. -/
theorem findIdx?_label (m : Method) (l : String) :
    m.body.reverse.findIdx? (·.instr.labelName? = some l) =
      (m.body.map (·.instr.control)).reverse.findIdx? (·.name? = some l) := by
  rw [← List.map_reverse, List.findIdx?_map]
  rfl

theorem label (ha : m.Aligned m') {l : String} {t : Stmt} (h : m.label? l = some t) :
    ∃ t', m'.label? l = some t' ∧ m.Matched m' (.stmt t) (.stmt t') := by
  rw [label?, List.find?_eq_bind_findIdx?_getElem?, findIdx?_label, Option.bind_eq_some_iff] at h
  obtain ⟨k, hk, ht⟩ := h
  have hlt : k < m.body.length := by simpa using (List.getElem?_eq_some_iff.1 ht).1
  rw [List.getElem?_reverse hlt] at ht
  obtain ⟨t', ht', -⟩ := ha.getElem? ht
  refine ⟨t', ?_, matched_stmt ht ht'⟩
  rw [label?, List.find?_eq_bind_findIdx?_getElem?, findIdx?_label, ha.control, hk,
    Option.bind_some, List.getElem?_reverse (ha.length_eq ▸ hlt), ha.length_eq, ht']

theorem exists_graph (ha : m.Aligned m') (h : m.graph = .ok g) : ∃ g', m'.graph = .ok g' := by
  rw [exists_graph_iff]
  intro s' hs' l hl
  obtain ⟨i, hi⟩ := List.mem_iff_getElem?.1 hs'
  obtain ⟨s, hs, hc⟩ := ha.symm.getElem? hi
  have hjump : s.instr.jump? = some l := (congrArg Control.jump? hc).trans hl
  obtain ⟨t, ht⟩ := exists_graph_iff.1 ⟨g, h⟩ s (List.mem_of_getElem? hs) l hjump
  obtain ⟨t', ht', -⟩ := ha.label ht
  exact ⟨t', ht'⟩

theorem leads (ha : m.Aligned m') (hs : m.body[i]? = some s) (hs' : m'.body[i]? = some s')
    (h : m.Leads i s n) : ∃ n', m.Matched m' n n' ∧ m'.Leads i s' n' := by
  obtain ⟨s₁, hs₁, hc⟩ := ha.getElem? hs
  cases hs'.symm.trans hs₁
  cases h with
  | jump hl ht =>
      obtain ⟨t', ht', hm⟩ := ha.label ht
      exact ⟨.stmt t', hm, .jump ((congrArg Control.jump? hc).trans hl) ht'⟩
  | next hf =>
      exact ⟨m'.nodeAt (i + 1), .pos (i + 1), .next ((congrArg Control.fallsThrough hc).trans hf)⟩
  | ret hr =>
      refine ⟨.exit, ?_, .ret ((congrArg Control.returns hc).trans hr)⟩
      have hexit : m.Matched m' _ _ := .pos m.body.length
      rwa [nodeAt_of_length_le (Nat.le_refl _), nodeAt_of_length_le (Nat.le_of_eq ha.length_eq)] at hexit

theorem links (ha : m.Aligned m') (h : m.graph = .ok g) (h' : m'.graph = .ok g')
    (huv : g.Links u v) : ∃ u' v', m.Matched m' u u' ∧ m.Matched m' v v' ∧ g'.Links u' v' := by
  rcases (edge_iff h).1 huv with ⟨rfl, rfl⟩ | ⟨i, s, hs, rfl, hl⟩
  · exact ⟨.entry, m'.nodeAt 0, .entry, .pos 0, (edge_iff h').2 (.inl ⟨rfl, rfl⟩)⟩
  · obtain ⟨s', hs', -⟩ := ha.getElem? hs
    obtain ⟨v', hv, hl'⟩ := ha.leads hs hs' hl
    exact ⟨.stmt s', v', matched_stmt hs hs', hv, (edge_iff h').2 (.inr ⟨i, s', hs', rfl, hl'⟩)⟩

end Aligned

end Method

end Dataflow
