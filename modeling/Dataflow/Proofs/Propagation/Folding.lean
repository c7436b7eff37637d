import Dataflow.Proofs.Propagation.Comparison
import Dataflow.Proofs.Propagation.Contents

/-!
# Folding constants

Expressions that the solution gives a constant are replaced by that constant, in any assignments and at
any depth. The solution stays the same at every position: a literal is at least what its expression was in
any run, and since every constant of a solution fits 32 bits, it is no more than what the expression is in
the end.
-/

namespace Dataflow

variable {env env' : Env}

/-! ## Folded methods -/

/-- Some expressions that are constant in the environment are replaced by literals. -/
inductive Exp.Folds (env : Env) : Exp → Exp → Prop
  | const {e : Exp} {c : Int} : e.eval env = .const c → Folds env e (.lit c)
  | refl (e : Exp) : Folds env e e
  | bin {op : BinOp} {a a' b b' : Exp} :
      Folds env a a' → Folds env b b' → Folds env (.bin op a b) (.bin op a' b')
  | unclassed {op : BinOp} {a a' b b' : Exp} :
      Folds env a a' → Folds env b b' → Folds env (.unclassed op a b) (.unclassed op a' b')
  | neg {e e' : Exp} : Folds env e e' → Folds env (.neg e) (.neg e')
  | cast {type : Ty} {e e' : Exp} : Folds env e e' → Folds env (.cast type e) (.cast type e')
  | call {method : String} {args args' : List Exp} : args.length = args'.length →
      (∀ p ∈ args.zip args', Folds env p.1 p.2) → Folds env (.call method args) (.call method args')

/-- An assignment may have its source folded; nothing else changes. -/
inductive Instr.Folds (env : Env) : Instr → Instr → Prop
  | assign {x : Var} {e e' : Exp} : e.Folds env e' → Folds env (.assign x e) (.assign x e')
  | refl (i : Instr) : Folds env i i

/-- The second method is the first with assignments folded by what the facts say before them. -/
structure Method.FoldsTo (m : Method) (t : Facts Node Env) (m' : Method) : Prop where
  params : m'.params = m.params
  nodup : m'.body.Nodup
  body : List.Forall₂ (fun s s' => s.instr.Folds (t.before (.stmt s)) s'.instr) m.body m'.body

theorem Exp.Folds.eval_eq (henv : env.InRange) {e e' : Exp} (h : e.Folds env e') :
    e'.eval env = e.eval env := by
  induction h with
  | @const e c he =>
      have hc : (Value.const c).InRange := he ▸ e.eval_inRange henv
      rw [he, eval, Value.ofInt, hc]
  | refl e => rfl
  | bin _ _ iha ihb => simp only [eval, iha, ihb]
  | unclassed _ _ iha ihb => simp only [eval, iha, ihb]
  | neg _ _ | cast _ _ | call _ _ _ => simp only [eval]

/-- Where less is known, a folded expression may be worth more, but never less. -/
theorem Exp.Folds.eval_le (henv : env.InRange) (hle : env' ≤ env) {e e' : Exp} (h : e.Folds env e') :
    e.eval env' ≤ e'.eval env' := by
  induction h with
  | @const e c he =>
      have hlit : (Exp.lit c).eval env' = e.eval env := by
        rw [← (Exp.Folds.const he).eval_eq henv, eval, eval]
      rw [hlit]
      exact e.eval_mono hle
  | refl e => exact le_refl _
  | bin _ _ iha ihb => simp only [eval]; exact Value.lift₂_mono _ iha ihb
  | unclassed _ _ iha ihb => simp only [eval]; exact Value.lift₂_mono _ iha ihb
  | neg _ _ | cast _ _ | call _ _ _ => simp only [eval]; exact le_refl _

theorem Instr.Folds.control {i j : Instr} (h : i.Folds env j) : j.control = i.control := by
  cases h with
  | assign _ => rfl
  | refl _ => rfl

namespace Propagation

open Worklist

variable {m m' : Method} {g : Graph Node} {t : Facts Node Env}

/-! ## One statement -/

theorem flow_fold (n n' : Node) (hf : n.instr.Folds env n'.instr) (henv : env.InRange) :
    flow n' env = flow n env := by
  generalize hi : n.instr = i at hf
  generalize hj : n'.instr = j at hf
  cases hf with
  | assign he =>
      simp only [flow, hi, hj, Instr.target?, Instr.source?, Option.map_some, he.eval_eq henv]
  | refl i => simp only [flow, hi, hj]

theorem flow_le_fold (n n' : Node) (hf : n.instr.Folds env n'.instr) (henv : env.InRange)
    (hle : env' ≤ env) : flow n env' ≤ flow n' env' := by
  generalize hi : n.instr = i at hf
  generalize hj : n'.instr = j at hf
  cases hf with
  | @assign x e e' he =>
      simp only [flow, hi, hj, Instr.target?, Instr.source?, Option.map_some, Option.getD_some]
      split
      · exact Env.set_mono x (le_refl env') (he.eval_le henv hle)
      · exact le_refl env'
  | refl i =>
      simp only [flow, hi, hj]
      exact le_refl _

/-! ## Whole methods -/

theorem solvesTo_fold (hnodup : m.body.Nodup) (hf : m.FoldsTo t m') (hg : m.graph = .ok g)
    (ht : SolvesTo m g t) (h : LeastSolution m g t) :
    ∃ g' t', m'.graph = .ok g' ∧ SolvesTo m' g' t' ∧ AgreeOn Set.univ m m' t t' := by
  have ha : m.Aligned m' := .of_forall₂ hnodup hf.nodup hf.body fun _ _ => Instr.Folds.control
  obtain ⟨g', hg'⟩ := ha.exists_graph hg
  obtain ⟨t', ht', h'⟩ := exists_solvesTo m' (Method.dst_ne_entry hg')
  have hrange : ∀ {s s'}, m.Matched m' (.stmt s) (.stmt s') → (t.before (.stmt s)).InRange :=
    fun hm => (ht.inRange _ (hm.mem_nodes hg)).1
  have hflow : FlowsBelow Set.univ m m' t := by
    intro s s' hm env henv y _
    obtain ⟨hmem, -, hfold⟩ := hm.rel hf.body
    have hsame : env ≤ t.before (.stmt s) := fun z => (henv z (Set.mem_univ z)).le
    rw [h.after_stmt hg hmem, ← flow_fold (.stmt s) (.stmt s') hfold (hrange hm)]
    exact flow_mono _ hsame y
  refine ⟨g', t', hg', ht', h.agreeOn ha hf.params hg hg' h' hflow ?_⟩
  intro s' s hm env henv y _
  obtain ⟨-, hmem', hfold⟩ := hm.symm.rel hf.body
  have hsame : env ≤ t'.before (.stmt s') := fun z => (henv z (Set.mem_univ z)).le
  -- the other half of the comparison: the literals were read off facts above those of the second method
  have hbelow : t'.before (.stmt s') ≤ t.before (.stmt s) := fun z =>
    (h.le_of_flowsBelow ha hf.params hg hg' h' hflow hm.symm (Set.mem_univ z)).1
  rw [h'.after_stmt hg' hmem']
  calc (flow (.stmt s) env).get y
      ≤ (flow (.stmt s) (t'.before (.stmt s'))).get y := flow_mono _ hsame y
    _ ≤ (flow (.stmt s') (t'.before (.stmt s'))).get y :=
        flow_le_fold (.stmt s) (.stmt s') hfold (hrange hm.symm) hbelow y

/-- Folding what the solution says is constant leaves the solution as it is. -/
theorem solve_fold (h : m.graph = .ok g) (hnodup : m.body.Nodup) :
    ∃ t, SolvesTo m g t ∧ ∀ m', m.FoldsTo t m' →
      ∃ g' t', m'.graph = .ok g' ∧ SolvesTo m' g' t' ∧ AgreeOn Set.univ m m' t t' := by
  obtain ⟨t, ht, hleast⟩ := exists_solvesTo m (Method.dst_ne_entry h)
  exact ⟨t, ht, fun m' hf => solvesTo_fold hnodup hf h ht hleast⟩

theorem solve_fold_settle :
    let n : Var := ⟨"n", .prim .int⟩
    let k : Var := ⟨"k", .prim .int⟩
    let j : Var := ⟨"j", .prim .int⟩
    let m' : Method := { settle with
      body := [⟨0, .assign k (.lit 2)⟩, ⟨1, .label "top"⟩, ⟨2, .assign j (.bin .add (.var n) (.lit 2))⟩,
        ⟨3, .assign k (.lit 2)⟩, ⟨4, .invoke (some n) (.call "next" [.var j])⟩,
        ⟨5, .branch (.bin .gt (.var n) (.lit 0)) "top"⟩, ⟨6, .ret (some (.var k))⟩] }
    settle.body.Nodup ∧ ∃ g t g' t', settle.graph = .ok g ∧ SolvesTo settle g t ∧
      settle.FoldsTo t m' ∧ m'.graph = .ok g' ∧ SolvesTo m' g' t' ∧
        AgreeOn Set.univ settle m' t t' := by
  intro n k j m'
  have hnodup : settle.body.Nodup := by decide
  obtain ⟨g, hg, hval₂, hval₃⟩ : ∃ g, settle.graph = .ok g ∧
      ((solve (problem settle) g none).solution.ins.get? (settle.nodeAt 2)).map (·.get k) =
        some (.const 2) ∧
      ((solve (problem settle) g none).solution.ins.get? (settle.nodeAt 3)).map (·.get k) =
        some (.const 2) :=
    ⟨_, rfl, by decide +kernel, by decide +kernel⟩
  obtain ⟨t, ht, hall⟩ := solve_fold hg hnodup
  have hmem : ∀ i, settle.nodeAt i ∈ g.nodes := fun i => (Method.mem_nodes_iff hg).2 (.inr ⟨i, rfl⟩)
  rw [(ht.2 _ (hmem 2)).1, Option.map_some, Option.some.injEq] at hval₂
  rw [(ht.2 _ (hmem 3)).1, Option.map_some, Option.some.injEq] at hval₃
  have hfolds : settle.FoldsTo t m' := by
    refine ⟨rfl, by decide, ?_⟩
    simp only [settle, m', List.forall₂_cons, List.forall₂_nil_left_iff, and_true]
    refine ⟨.refl _, .refl _, .assign (.bin (.refl _) (.const ?_)), .assign (.const ?_), .refl _,
      .refl _, .refl _⟩
    · rw [Exp.eval]
      exact hval₂
    · have hk : (Exp.var k).eval (t.before (settle.nodeAt 3)) = .const 2 := by rw [Exp.eval, hval₃]
      change (Exp.bin .sub (.lit 4) (.var k)).eval (t.before (settle.nodeAt 3)) = .const 2
      rw [Exp.eval, Exp.eval, hk]
      rfl
  obtain ⟨g', t', hg', ht', hagree⟩ := hall m' hfolds
  exact ⟨hnodup, g, t, g', t', hg, ht, hfolds, hg', ht', hagree⟩

end Propagation

end Dataflow
