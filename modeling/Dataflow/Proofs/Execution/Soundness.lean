import Dataflow.Proofs.Execution.Run
import Dataflow.Proofs.Propagation.Solving

/-!
# Constant propagation is sound

Wherever a run is, each variable with a word has in the environment of that place this word as its
constant, or no constant: any tables that no visit can raise cover every run, and so does the solution.
-/

namespace Dataflow

variable {m : Method} {g : Graph Node} {t : Facts Node Env} {σ σ' : Store} {env env' : Env}

/-- Every variable that fits a 32-bit integer and has a word has the constant of that word, or `nac`. -/
def Env.Covers (env : Env) (σ : Store) : Prop :=
  ∀ x w, x.tracked = true → σ x = some w → env.get x = .const w.toInt ∨ env.get x = .nac

theorem Env.covers_iff : env.Covers σ ↔
    ∀ x w, x.tracked = true → σ x = some w → .const w.toInt ≤ env.get x := by
  simp only [Covers, Value.const_le]

theorem Env.Covers.mono (h : env.Covers σ) (hle : env ≤ env') : env'.Covers σ :=
  covers_iff.2 fun x w hx hw => (covers_iff.1 h x w hx hw).trans (hle x)

/-! ## One instruction -/

theorem Exp.Yields.le_eval {e : Exp} {w : Word} (h : e.Yields σ w) (hcov : env.Covers σ)
    (hreads : ∀ x ∈ e.reads, x.tracked = true) : .const w.toInt ≤ e.eval env := by
  induction h with
  | @lit n => rw [eval, Value.ofInt, BinOp.wrap32_eq_toInt]
  | @var x w hw => exact Env.covers_iff.1 hcov x w (hreads x List.mem_cons_self) hw
  | @bin op a b u v w _ _ hop iha ihb =>
      have ha : .const u.toInt ≤ a.eval env := iha fun x hx => hreads x (List.mem_append_left _ hx)
      have hb : .const v.toInt ≤ b.eval env := ihb fun x hx => hreads x (List.mem_append_right _ hx)
      have hfold : op.fold u.toInt v.toInt = .const w.toInt := by rw [BinOp.fold_toInt, hop]; rfl
      rw [eval, ← hfold]
      exact Value.lift₂_mono op.fold ha hb
  | neg => exact Value.le_nac _
  | cast => exact Value.le_nac _
  | call => exact Value.le_nac _
  | field => exact Value.le_nac _

theorem covers_flow {s : Stmt} (h : s.instr.Effect σ σ') (hcov : env.Covers σ)
    (hreads : ∀ e ∈ s.instr.source?, ∀ x ∈ e.reads, x.tracked = true) :
    (Propagation.flow (.stmt s) env).Covers σ' := by
  cases h with
  | skip ht => simpa only [Propagation.flow, Node.instr, ht] using hcov
  | @define x e w ht he hw =>
      simp only [Propagation.flow, Node.instr, ht, he, Option.map_some, Option.getD_some]
      intro y v hy hv
      by_cases hxy : x = y
      · subst hxy
        rw [Function.update_self, Option.some.injEq] at hv
        subst hv
        rw [if_pos hy, Env.get_set, if_pos rfl]
        exact Value.const_le.1 (hw.le_eval hcov (hreads e he))
      · rw [Function.update_of_ne (Ne.symm hxy)] at hv
        split
        · rw [Env.get_set, if_neg hxy]
          exact hcov y v hy hv
        · exact hcov y v hy hv

/-! ## Runs -/

theorem covers_boundary (h : m.Starts σ) : (Propagation.boundary m).Covers σ := by
  intro x w hx hw
  have hparam : x ∈ m.params := ((h x).1 (Option.isSome_of_eq_some hw)).1
  exact .inr ((Propagation.get_boundary m x).trans (if_pos ⟨hparam, hx⟩))

namespace Method

open Worklist Propagation

variable {s : Stmt} {i : Nat}

theorem covers_after (h : m.graph = .ok g) (hreads : m.ReadsTracked)
    (hclosed : Closed (problem m) g t) (hs : m.body[i]? = some s)
    (hmem : .stmt s ∈ g.nodes) (hcov : (t.before (.stmt s)).Covers σ) (heff : s.instr.Effect σ σ') :
    (t.after (.stmt s)).Covers σ' := by
  have hne : Node.stmt s ≠ g.entry := by rw [entry_of_graph h]; exact nofun
  have hflow : (flow (.stmt s) (t.before (.stmt s))).Covers σ' :=
    covers_flow heff hcov (hreads s (List.mem_of_getElem? hs))
  exact hflow.mono ((transfer_antisymm m _ _ _).2.trans (hclosed.node _ hmem hne))

theorem covers_of_reaches (h : m.graph = .ok g) (hreads : m.ReadsTracked)
    (hclosed : Closed (problem m) g t)
    (hboundary : boundary m ≤ t.after g.entry) {c : Config} (hc : m.Reaches c) :
    m.nodeAt c.pos ∈ g.nodes ∧ (t.before (m.nodeAt c.pos)).Covers c.store := by
  -- along the run every node is in the graph, and the fact before it covers the store
  induction hc with
  | start hσ =>
      obtain ⟨e, he, hsrc, hdst⟩ := (edge_iff h).2 (.inl ⟨rfl, rfl⟩)
      have hedge := hclosed.edge e he
      rw [hsrc, hdst, ← entry_of_graph h] at hedge
      exact ⟨hdst ▸ (g.ends_mem e he).2, (covers_boundary hσ).mono (hboundary.trans hedge)⟩
  | step _ hstep ih =>
      cases hstep with
      | @mk i j s σ σ' hs heff hnext =>
          simp only [nodeAt_of_getElem? hs] at ih
          have hafter := covers_after h hreads hclosed hs ih.1 ih.2 heff
          obtain ⟨e, he, hsrc, hdst⟩ := (edge_iff h).2 (.inr ⟨i, s, hs, rfl, hnext.leads⟩)
          have hedge := hclosed.edge e he
          rw [hsrc, hdst] at hedge
          exact ⟨hdst ▸ (g.ends_mem e he).2, hafter.mono hedge⟩

/-- What a run is about to do or has just done, the facts before and after the statement cover. -/
theorem solve_covers (h : m.graph = .ok g) (hreads : m.ReadsTracked) :
    let a := solve (problem m) g none
    a.error = none ∧ ∀ i s σ, m.Reaches ⟨i, σ⟩ → m.body[i]? = some s →
      (∃ env, a.solution.ins.get? (.stmt s) = some env ∧ env.Covers σ) ∧
        ∀ σ', s.instr.Effect σ σ' →
          ∃ env, a.solution.outs.get? (.stmt s) = some env ∧ env.Covers σ' := by
  have hentry := dst_ne_entry h
  obtain ⟨herr, t, ht, hsolves⟩ := solve_problem m hentry
  have hclosed := hsolves.closed hentry
  refine ⟨herr, fun i s σ hc hs => ?_⟩
  obtain ⟨hmem, hcov⟩ := covers_of_reaches h hreads hclosed hsolves.after_entry.ge hc
  simp only [nodeAt_of_getElem? hs] at hmem hcov
  obtain ⟨hin, hout⟩ := ht _ hmem
  exact ⟨⟨_, hin, hcov⟩, fun σ' heff =>
    ⟨_, hout, covers_after h hreads hclosed hs hmem hcov heff⟩⟩

theorem solve_covers_countdown :
    ∃ g σ s, countdown.graph = .ok g ∧ countdown.ReadsTracked ∧ countdown.Reaches ⟨3, σ⟩ ∧
      countdown.body[3]? = some s ∧ σ ⟨"d", .prim .int⟩ = some 1 ∧
        ∃ env, (solve (problem countdown) g none).solution.ins.get? (.stmt s) = some env ∧
          (env.get ⟨"d", .prim .int⟩ = .const 1 ∨ env.get ⟨"d", .prim .int⟩ = .nac) := by
  let σ : Store := fun x => if x = ⟨"n", .prim .int⟩ then some 7 else none
  have hstart : countdown.Starts σ := by
    intro x
    by_cases hx : x = ⟨"n", .prim .int⟩
    · simp [σ, hx, countdown, Var.tracked, Ty.intLike, Prim.intLike]
    · simp [σ, hx, countdown]
  have h₁ := Reaches.step (.start hstart) (.mk rfl (.define rfl rfl .lit) (.next rfl))
  have h₂ := Reaches.step h₁ (.mk rfl (.skip rfl) (.next rfl))
  have h₃ := Reaches.step h₂ (.mk rfl (.define rfl rfl (.bin (.var rfl) .lit rfl)) (.next rfl))
  have hreads : countdown.ReadsTracked := by unfold ReadsTracked; decide
  obtain ⟨⟨env, henv, hcov⟩, -⟩ := (solve_covers rfl hreads).2 3 _ _ h₃ rfl
  exact ⟨_, _, _, rfl, hreads, h₃, rfl, rfl, env, henv, hcov ⟨"d", .prim .int⟩ 1 rfl rfl⟩

end Method

end Dataflow
