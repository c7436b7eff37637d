import Dataflow.Proofs.Propagation.Solving

/-!
# Reaching definitions

A definition of a variable reaches a node if a walk leads from it to the node past no other definition
of the variable; the entry defines every variable. The value of a variable before a node is the meet of
the values after the definitions that reach the node.
-/

namespace Dataflow

namespace Graph

/-- The entry, or a statement that defines the variable. -/
def Defines (g : Graph Node) (x : Var) (d : Node) : Prop := d = g.entry ∨ d.instr.target? = some x

/-- A walk of at least one edge on which no node strictly between the ends defines the variable. -/
inductive ClearWalk (g : Graph Node) (x : Var) (d : Node) : Node → Prop
  | link {n : Node} : g.Links d n → ClearWalk g x d n
  | snoc {k n : Node} :
      ClearWalk g x d k → k.instr.target? ≠ some x → g.Links k n → ClearWalk g x d n

open Classical in
/-- The definitions of the variable that reach the node. -/
noncomputable def definitions (g : Graph Node) (x : Var) (n : Node) : List Node :=
  g.nodes.filter fun d => g.Defines x d ∧ g.ClearWalk x d n

variable {g : Graph Node} {x : Var} {d k n : Node}

theorem ClearWalk.mem_nodes (h : g.ClearWalk x d n) : d ∈ g.nodes ∧ n ∈ g.nodes := by
  induction h with
  | link hl => exact hl.mem_nodes
  | snoc _ _ hl ih => exact ⟨ih.1, hl.mem_nodes.2⟩

theorem ClearWalk.ne_entry (hentry : ∀ e ∈ g.edges, e.dst ≠ g.entry) (h : g.ClearWalk x d n) :
    n ≠ g.entry := by
  cases h with
  | link hl => exact hl.ne_entry hentry
  | snoc _ _ hl => exact hl.ne_entry hentry

theorem mem_definitions : d ∈ g.definitions x n ↔ g.Defines x d ∧ g.ClearWalk x d n := by
  simp only [definitions, List.mem_filter, decide_eq_true_eq]
  exact ⟨fun h => h.2, fun h => ⟨h.2.mem_nodes.1, h⟩⟩

end Graph

namespace Propagation

open Worklist

variable {m : Method} {g : Graph Node} {t : Facts Node Env} {x : Var} {d k n : Node}

/-- The meet of the values after the definitions that reach the node. -/
noncomputable def defined (g : Graph Node) (t : Facts Node Env) (x : Var) (n : Node) : Value :=
  Value.meetAll ((g.definitions x n).map fun d => (t.after d).get x)

open Classical in
/-- The tables in which a value of the variable that no definition made is undone. -/
noncomputable def confine (g : Graph Node) (t : Facts Node Env) (x : Var) : Facts Node Env where
  before n := (t.before n).set x (defined g t x n)
  after n := if g.Defines x n then t.after n else (t.after n).set x (defined g t x n)

/-! ## Definitions carry values -/

theorem LeastSolution.after_eq_before (h : LeastSolution m g t) (hn : n ∈ g.nodes)
    (hx : ¬g.Defines x n) : (t.after n).get x = (t.before n).get x := by
  rw [h.after n hn (fun he => hx (.inl he)) x, get_flow_of_ne fun ht => hx (.inr ht)]

theorem LeastSolution.after_le_of_clearWalk (h : LeastSolution m g t)
    (hentry : ∀ e ∈ g.edges, e.dst ≠ g.entry) (hw : g.ClearWalk x d n) :
    (t.after d).get x ≤ (t.before n).get x := by
  induction hw with
  | link hl => exact h.after_le_before hentry hl x
  | @snoc k n hw hk hl ih =>
      have hdef : ¬g.Defines x k := fun hd => hd.elim (hw.ne_entry hentry) hk
      have hle := h.after_le_before hentry hl x
      rw [h.after_eq_before hw.mem_nodes.2 hdef] at hle
      exact ih.trans hle

theorem LeastSolution.defined_le (h : LeastSolution m g t)
    (hentry : ∀ e ∈ g.edges, e.dst ≠ g.entry) (x : Var) (n : Node) :
    defined g t x n ≤ (t.before n).get x := by
  refine Value.meetAll_le_iff.2 fun v hv => ?_
  obtain ⟨d, hd, rfl⟩ := List.mem_map.1 hv
  exact h.after_le_of_clearWalk hentry (Graph.mem_definitions.1 hd).2

theorem after_le_defined (hd : g.Defines x d) (hw : g.ClearWalk x d n) :
    (t.after d).get x ≤ defined g t x n :=
  Value.le_meetAll (List.mem_map_of_mem (Graph.mem_definitions.2 ⟨hd, hw⟩))

theorem defined_le_defined (hk : k.instr.target? ≠ some x) (hl : g.Links k n) :
    defined g t x k ≤ defined g t x n := by
  refine Value.meetAll_le_iff.2 fun v hv => ?_
  obtain ⟨d, hd, rfl⟩ := List.mem_map.1 hv
  obtain ⟨hd, hw⟩ := Graph.mem_definitions.1 hd
  exact after_le_defined hd (hw.snoc hk hl)

/-! ## No other values -/

theorem confine_after_of_defines (hd : g.Defines x n) : (confine g t x).after n = t.after n :=
  if_pos hd

theorem confine_after_of_not_defines (hd : ¬g.Defines x n) :
    (confine g t x).after n = (t.after n).set x (defined g t x n) := if_neg hd

theorem LeastSolution.confine_edge (h : LeastSolution m g t)
    (hentry : ∀ e ∈ g.edges, e.dst ≠ g.entry) (hl : g.Links k n) :
    (confine g t x).after k ≤ (confine g t x).before n := by
  intro y
  have hle := h.after_le_before hentry hl y
  by_cases hd : g.Defines x k
  · rw [confine_after_of_defines hd, confine, Env.get_set]
    split
    · next hxy =>
        subst hxy
        exact after_le_defined hd (.link hl)
    · exact hle
  · rw [confine_after_of_not_defines hd, confine, Env.get_set, Env.get_set]
    split
    · exact defined_le_defined (fun ht => hd (.inr ht)) hl
    · exact hle

theorem LeastSolution.confine_node (h : LeastSolution m g t)
    (hentry : ∀ e ∈ g.edges, e.dst ≠ g.entry) (hn : n ∈ g.nodes) (hne : n ≠ g.entry) :
    flow n ((confine g t x).before n) ≤ (confine g t x).after n := by
  have hbefore : (confine g t x).before n ≤ t.before n := by
    intro y
    rw [confine, Env.get_set]
    split
    · next hxy => exact hxy ▸ h.defined_le hentry x n
    · exact le_refl _
  have hle : flow n ((confine g t x).before n) ≤ t.after n := fun y =>
    (flow_mono n hbefore y).trans (h.after n hn hne y).ge
  by_cases hd : g.Defines x n
  · rw [confine_after_of_defines hd]
    exact hle
  · rw [confine_after_of_not_defines hd]
    intro y
    rw [Env.get_set]
    split
    · next hxy =>
        subst hxy
        rw [get_flow_of_ne fun ht => hd (.inr ht), confine, Env.get_set, if_pos rfl]
    · exact hle y

theorem LeastSolution.before_eq_defined (h : LeastSolution m g t)
    (hentry : ∀ e ∈ g.edges, e.dst ≠ g.entry) (hn : n ∈ g.nodes) (x : Var) :
    (t.before n).get x = defined g t x n := by
  have hbelow : t.Below g (confine g t x) := by
    refine h.least _ ?_ ?_ ?_
    · rw [confine_after_of_defines (.inl rfl), h.after_entry]
    · exact fun e he => h.confine_edge hentry ⟨e, he, rfl, rfl⟩
    · exact fun n hn hne => h.confine_node hentry hn hne
  have hle := (hbelow n hn).1 x
  rw [confine, Env.get_set, if_pos rfl] at hle
  exact le_antisymm hle (h.defined_le hentry x n)

/-- The value of a variable before a node is the meet of the values after the definitions that reach the
node. So a constant comes from one of them, and none of them has another constant. -/
theorem solve_eq_meet_definitions (h : m.graph = .ok g) :
    ∃ t, SolvesTo m g t ∧ ∀ n ∈ g.nodes, ∀ x,
      (t.before n).get x = Value.meetAll ((g.definitions x n).map fun d => (t.after d).get x) ∧
        ∀ c, (t.before n).get x = .const c →
          (∃ d ∈ g.definitions x n, (t.after d).get x = .const c) ∧
            ∀ d ∈ g.definitions x n, (t.after d).get x = .undef ∨ (t.after d).get x = .const c := by
  have hentry := Method.dst_ne_entry h
  obtain ⟨t, ht, hleast⟩ := exists_solvesTo m hentry
  refine ⟨t, ht, fun n hn x => ?_⟩
  have heq := hleast.before_eq_defined hentry hn x
  refine ⟨heq, fun c hc => ?_⟩
  obtain ⟨hmem, hall⟩ := Value.of_meetAll_eq_const (heq.symm.trans hc)
  exact ⟨List.mem_map.1 hmem, fun d hd => hall _ (List.mem_map_of_mem hd)⟩

theorem solve_eq_meet_definitions_countdown :
    let d : Var := ⟨"d", .prim .int⟩
    let n : Node := countdown.nodeAt 3
    ∃ g t, countdown.graph = .ok g ∧ SolvesTo countdown g t ∧ n ∈ g.nodes ∧
      (t.before n).get d = .const 1 ∧
      (t.before n).get d = Value.meetAll ((g.definitions d n).map fun k => (t.after k).get d) ∧
      ∃ k ∈ g.definitions d n, (t.after k).get d = .const 1 := by
  intro d n
  obtain ⟨g, hg, hval⟩ : ∃ g, countdown.graph = .ok g ∧
      ((solve (problem countdown) g none).solution.ins.get? n).map (·.get d) = some (.const 1) :=
    ⟨_, rfl, by decide +kernel⟩
  obtain ⟨t, ht, hall⟩ := solve_eq_meet_definitions hg
  have hn : n ∈ g.nodes := (Method.mem_nodes_iff hg).2 (.inr ⟨3, rfl⟩)
  rw [(ht.2 n hn).1, Option.map_some, Option.some.injEq] at hval
  exact ⟨g, t, hg, ht, hn, hval, (hall n hn d).1, ((hall n hn d).2 1 hval).1⟩

end Propagation

end Dataflow
