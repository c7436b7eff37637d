import Dataflow.Proofs.Env.Tabulate
import Dataflow.Proofs.Method.Alignment
import Dataflow.Proofs.Propagation.Solving

/-!
# Comparing the solutions of two methods

Two methods with the same control flow are compared place by place, on a set of variables whose values no
other variable influences. Where each statement of the second method stays below what the first method's
solution has at its place, the solution of the second stays below that of the first.
-/

namespace Dataflow

/-- The values of a variable before and after a node. -/
def Facts.values (t : Facts Node Env) (n : Node) (x : Var) : Value × Value :=
  ((t.before n).get x, (t.after n).get x)

namespace Propagation

/-- At every place both tables give the variables of the set the same values. -/
def AgreeOn (S : Set Var) (m m' : Method) (t t' : Facts Node Env) : Prop :=
  ∀ n n', m.Matched m' n n' → ∀ x ∈ S, t.values n x = t'.values n' x

/-- What a statement of the second method makes of the facts before the statement at its place is on the
variables of the set below the facts after that statement, whatever is known of other variables. -/
def FlowsBelow (S : Set Var) (m m' : Method) (t : Facts Node Env) : Prop :=
  ∀ s s', m.Matched m' (.stmt s) (.stmt s') → ∀ env : Env,
    (∀ y ∈ S, env.get y = (t.before (.stmt s)).get y) →
      ∀ x ∈ S, (flow (.stmt s') env).get x ≤ (t.after (.stmt s)).get x

/-- Above every value that a variable has anywhere in the method. -/
def ceiling (m : Method) : Env :=
  .tabulate ((boundary m).bindings.keys ++ m.body.filterMap (·.instr.target?)) fun _ => .nac

/-- The facts of the first method at the places of the second on the variables of the set, and no
knowledge of other variables. -/
noncomputable def transport (S : Set Var) (m m' : Method) (t : Facts Node Env) : Facts Node Env where
  before n := (t.before (m.counterpart m' n)).piecewise S (ceiling m')
  after n := (t.after (m.counterpart m' n)).piecewise S (ceiling m')

/-- A loop in which a constant is computed anew from itself, and a counter from both. -/
def settle : Method where
  name := "settle"
  params := [⟨"n", .prim .int⟩]
  locals := [⟨"k", .prim .int⟩, ⟨"j", .prim .int⟩]
  body :=
    let n : Var := ⟨"n", .prim .int⟩
    let k : Var := ⟨"k", .prim .int⟩
    let j : Var := ⟨"j", .prim .int⟩
    [⟨0, .assign k (.lit 2)⟩, ⟨1, .label "top"⟩, ⟨2, .assign j (.bin .add (.var n) (.var k))⟩,
      ⟨3, .assign k (.bin .sub (.lit 4) (.var k))⟩, ⟨4, .invoke (some n) (.call "next" [.var j])⟩,
      ⟨5, .branch (.bin .gt (.var n) (.lit 0)) "top"⟩, ⟨6, .ret (some (.var k))⟩]

variable {S : Set Var} {m m' : Method} {g g' : Graph Node} {t t' : Facts Node Env} {n n' : Node}
  {s s' : Stmt} {x : Var} {env : Env}

/-! ## No knowledge -/

theorem boundary_le_ceiling : boundary m ≤ ceiling m := by
  intro x
  rw [ceiling, Env.get_tabulate]
  split
  · exact Value.le_nac _
  · next hx =>
      rw [List.mem_append, not_or, Env.mem_keys, not_not] at hx
      rw [hx.1]

theorem ceiling_of_target (hs : s ∈ m.body) (hx : s.instr.target? = some x) :
    (ceiling m).get x = .nac := by
  rw [ceiling, Env.get_tabulate, if_pos]
  exact List.mem_append_right _ (List.mem_filterMap.2 ⟨s, hs, hx⟩)

theorem flow_le_ceiling (hs : s ∈ m.body) (h : env.get x ≤ (ceiling m).get x) :
    (flow (.stmt s) env).get x ≤ (ceiling m).get x := by
  rcases flow_get (.stmt s) env x with hx | ⟨hx, -⟩
  · rw [hx]
    exact h
  · rw [ceiling_of_target hs hx]
    exact Value.le_nac _

/-! ## Transported facts -/

theorem boundary_eq (h : m'.params = m.params) : boundary m' = boundary m := by
  rw [boundary, boundary, h]

theorem flow_exit (env : Env) : flow .exit env = env := rfl

theorem before_transport (ha : m.Aligned m') (hn : m.Matched m' n n') :
    (transport S m m' t).before n' = (t.before n).piecewise S (ceiling m') := by
  simp only [transport, ha.counterpart_eq hn]

theorem after_transport (ha : m.Aligned m') (hn : m.Matched m' n n') :
    (transport S m m' t).after n' = (t.after n).piecewise S (ceiling m') := by
  simp only [transport, ha.counterpart_eq hn]

theorem LeastSolution.transport_entry (ha : m.Aligned m') (hparams : m'.params = m.params)
    (hg : m.graph = .ok g) (hg' : m'.graph = .ok g') (h : LeastSolution m g t) :
    boundary m' ≤ (transport S m m' t).after g'.entry := by
  have hafter := h.after_entry
  rw [Method.entry_of_graph hg] at hafter
  rw [Method.entry_of_graph hg', after_transport ha .entry, hafter, ← boundary_eq hparams]
  intro x
  by_cases hx : x ∈ S
  · rw [Env.get_piecewise_of_mem hx]
  · rw [Env.get_piecewise_of_notMem hx]
    exact boundary_le_ceiling x

theorem LeastSolution.transport_edge (ha : m.Aligned m') (hg : m.graph = .ok g)
    (hg' : m'.graph = .ok g') (h : LeastSolution m g t) {u v : Node} (huv : g'.Links u v) :
    (transport S m m' t).after u ≤ (transport S m m' t).before v := by
  obtain ⟨u₀, v₀, hu, hv, hl⟩ := ha.symm.links hg' hg huv
  rw [after_transport ha hu.symm, before_transport ha hv.symm]
  intro x
  by_cases hx : x ∈ S
  · rw [Env.get_piecewise_of_mem hx, Env.get_piecewise_of_mem hx]
    exact h.after_le_before (Method.dst_ne_entry hg) hl x
  · rw [Env.get_piecewise_of_notMem hx, Env.get_piecewise_of_notMem hx]

theorem LeastSolution.transport_node (ha : m.Aligned m') (hg : m.graph = .ok g)
    (h : LeastSolution m g t) (hflow : FlowsBelow S m m' t) (i : Nat) :
    flow (m'.nodeAt i) ((transport S m m' t).before (m'.nodeAt i)) ≤
      (transport S m m' t).after (m'.nodeAt i) := by
  rw [before_transport ha (.pos i), after_transport ha (.pos i)]
  intro x
  cases hs' : m'.body[i]? with
  | some s' =>
      obtain ⟨s, hs, -⟩ := ha.symm.getElem? hs'
      rw [Method.nodeAt_of_getElem? hs, Method.nodeAt_of_getElem? hs']
      -- of a variable outside the set nothing is known, so no definition can exceed it
      by_cases hx : x ∈ S
      · rw [Env.get_piecewise_of_mem hx]
        exact hflow s s' (Method.matched_stmt hs hs') _ (fun y hy => Env.get_piecewise_of_mem hy) x hx
      · rw [Env.get_piecewise_of_notMem hx]
        refine flow_le_ceiling (List.mem_of_getElem? hs') ?_
        rw [Env.get_piecewise_of_notMem hx]
  | none =>
      have hlen : m.body.length ≤ i := ha.length_eq ▸ List.getElem?_eq_none_iff.1 hs'
      rw [Method.nodeAt_of_length_le hlen, Method.nodeAt_of_length_le (ha.length_eq ▸ hlen), flow_exit]
      by_cases hx : x ∈ S
      · rw [Env.get_piecewise_of_mem hx, Env.get_piecewise_of_mem hx]
        have hmem : Node.exit ∈ g.nodes :=
          (Method.mem_nodes_iff hg).2 (.inr (Method.exists_nodeAt_iff.2 (.inl rfl)))
        have hne : Node.exit ≠ g.entry := by rw [Method.entry_of_graph hg]; exact nofun
        exact (h.after .exit hmem hne x).ge
      · rw [Env.get_piecewise_of_notMem hx, Env.get_piecewise_of_notMem hx]

theorem LeastSolution.le_of_flowsBelow (ha : m.Aligned m') (hparams : m'.params = m.params)
    (hg : m.graph = .ok g) (hg' : m'.graph = .ok g') (h : LeastSolution m g t)
    (h' : LeastSolution m' g' t') (hflow : FlowsBelow S m m' t) (hn : m.Matched m' n n')
    (hx : x ∈ S) : t'.values n' x ≤ t.values n x := by
  have hbelow : t'.Below g' (transport S m m' t) := by
    refine h'.least _ (h.transport_entry ha hparams hg hg') ?_ ?_
    · exact fun e he => h.transport_edge ha hg hg' ⟨e, he, rfl, rfl⟩
    · intro n hn hne
      rw [Method.entry_of_graph hg'] at hne
      obtain ⟨i, rfl⟩ := ((Method.mem_nodes_iff hg').1 hn).resolve_left hne
      exact h.transport_node ha hg hflow i
  obtain ⟨hbefore, hafter⟩ := hbelow n' (hn.symm.mem_nodes hg')
  constructor
  · have hle := hbefore x
    rwa [before_transport ha hn, Env.get_piecewise_of_mem hx] at hle
  · have hle := hafter x
    rwa [after_transport ha hn, Env.get_piecewise_of_mem hx] at hle

theorem LeastSolution.agreeOn (ha : m.Aligned m') (hparams : m'.params = m.params)
    (hg : m.graph = .ok g) (hg' : m'.graph = .ok g') (h : LeastSolution m g t)
    (h' : LeastSolution m' g' t') (hflow : FlowsBelow S m m' t) (hflow' : FlowsBelow S m' m t') :
    AgreeOn S m m' t t' := by
  intro n n' hn x hx
  apply le_antisymm
  · exact h'.le_of_flowsBelow ha.symm hparams.symm hg' hg h hflow' hn.symm hx
  · exact h.le_of_flowsBelow ha hparams hg hg' h' hflow hn hx

end Propagation

end Dataflow
