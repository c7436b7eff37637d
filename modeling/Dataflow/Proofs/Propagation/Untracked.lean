import Dataflow.Proofs.Execution.Run
import Dataflow.Proofs.Propagation.Solving
import Dataflow.Proofs.Worklist.Invariant

/-!
# Reads of untracked variables

A variable that does not fit a 32-bit integer has no value in any fact of a run, so an expression cannot
tell it from one of which nothing is known yet. Such an expression is `undef` unless it reads something
else that is `nac`, and a join behind an assignment of it shows what the other branches leave.
-/

namespace Dataflow

/-! ## What an expression reads -/

/-- Built from literals, variables and operators of the four families. -/
inductive Exp.Plain : Exp → Prop
  | lit (n : Int) : Plain (.lit n)
  | var (x : Var) : Plain (.var x)
  | bin (op : BinOp) {a b : Exp} : Plain a → Plain b → Plain (.bin op a b)

def Exp.ReadsUntracked (e : Exp) : Prop := ∃ x ∈ e.reads, x.tracked = false

def Exp.ReadsNac (env : Env) (e : Exp) : Prop := ∃ x ∈ e.reads, env.get x = .nac

instance (env : Env) (e : Exp) : Decidable (e.ReadsNac env) :=
  inferInstanceAs (Decidable (∃ x ∈ e.reads, env.get x = .nac))

/-- Only variables that fit a 32-bit integer have a value. -/
def Env.OnlyTracked (env : Env) : Prop := ∀ x, env.get x ≠ .undef → x.tracked = true

variable {env : Env} {e : Exp}

theorem BinOp.fold_ne_nac (op : BinOp) (a b : Int) : op.fold a b ≠ .nac := by
  unfold fold
  split
  · simp [Value.ofInt]
  · simp

theorem Exp.Plain.eval_eq_nac (h : e.Plain) : e.eval env = .nac ↔ e.ReadsNac env := by
  induction h with
  | lit n => simp [eval, ReadsNac, reads, Value.ofInt]
  | var x => simp [eval, ReadsNac, reads]
  | @bin op a b _ _ iha ihb =>
      rw [eval, Value.lift₂_eq_nac op.fold_ne_nac, iha, ihb]
      simp only [ReadsNac, reads, List.mem_append, or_and_right, exists_or]

/-- All that a constant expression reads is constant. -/
theorem Exp.get_of_eval_eq_const {c : Int} {x : Var} :
    (e : Exp) → e.eval env = .const c → x ∈ e.reads → ∃ d, env.get x = .const d
  | .lit _, _, hx => by cases hx
  | .var y, h, hx => by
      rw [eval] at h
      exact ⟨c, List.mem_singleton.1 hx ▸ h⟩
  | .bin _ a b, h, hx | .unclassed _ a b, h, hx => by
      rw [eval] at h
      obtain ⟨u, v, hu, hv⟩ := Value.of_lift₂_eq_const h
      rcases List.mem_append.1 hx with hx | hx
      · exact get_of_eval_eq_const a hu hx
      · exact get_of_eval_eq_const b hv hx
  | .neg _, _, hx | .cast .., _, hx | .call .., _, hx | .field .., _, hx => by cases hx

theorem Exp.ReadsUntracked.eval_eq (hu : e.ReadsUntracked) (he : e.Plain) (henv : env.OnlyTracked) :
    e.eval env = if e.ReadsNac env then .nac else .undef := by
  split
  · next h => exact he.eval_eq_nac.2 h
  · next h =>
      cases hv : e.eval env with
      | undef => rfl
      | const c =>
          obtain ⟨x, hx, htracked⟩ := hu
          obtain ⟨d, hd⟩ := e.get_of_eval_eq_const hv hx
          have hnot := henv x (by rw [hd]; exact nofun)
          rw [htracked] at hnot
          cases hnot
      | nac => exact absurd (he.eval_eq_nac.1 hv) h

namespace Propagation

open Worklist

variable {m : Method} {g : Graph Node} {t : Facts Node Env} {s : Stmt} {x : Var}

/-! ## Solved methods -/

theorem SolvesTo.onlyTracked (h : SolvesTo m g t) : AllOk g Env.OnlyTracked t := by
  refine solve_allOk (problem_keeps m fun _ _ _ _ hx => hx) rfl ?_ ?_ none h.2
  · exact fun x hx => absurd (Env.get_empty x) hx
  · intro x hx
    change (boundary m).get x ≠ .undef at hx
    rw [get_boundary] at hx
    by_contra hnot
    exact hx (if_neg fun hparam => hnot hparam.2)

theorem LeastSolution.after_assign (hg : m.graph = .ok g) (h : LeastSolution m g t) (hs : s ∈ m.body)
    (hi : s.instr = .assign x e) (hx : x.tracked = true) :
    (t.after (.stmt s)).get x = e.eval (t.before (.stmt s)) := by
  rw [h.after_stmt hg hs, get_flow_self (by rw [Node.instr, hi]; rfl) hx, Node.instr, hi]
  rfl

theorem LeastSolution.before_of_undef (h : LeastSolution m g t)
    (hentry : ∀ e ∈ g.edges, e.dst ≠ g.entry) {u v : Node} (huv : g.Links u v)
    (hu : (t.after u).get x = .undef) :
    (t.before v).get x =
      Value.meetAll (((g.preds v).filter (· ≠ u)).map fun k => (t.after k).get x) := by
  rw [h.before v huv.mem_nodes.2 (huv.ne_entry hentry), Value.meetAll_filter]
  intro k _ hk
  rw [show k = u by simpa using hk, hu]

/-- A plain expression that reads an untracked variable is `nac` exactly if it reads one that is `nac`,
and `undef` otherwise. A variable that is assigned such an expression gets that value, and at every node
that follows it is `nac` in the first case and what the other branches leave in the second. -/
theorem solve_readsUntracked (he : e.Plain) (hu : e.ReadsUntracked) :
    (∀ env : Env, env.OnlyTracked → e.eval env = if e.ReadsNac env then .nac else .undef) ∧
      ∀ m g, m.graph = .ok g → ∃ t, SolvesTo m g t ∧
        ∀ s ∈ m.body, ∀ x, s.instr = .assign x e → x.tracked = true →
          ((t.after (.stmt s)).get x = if e.ReadsNac (t.before (.stmt s)) then .nac else .undef) ∧
            ∀ n, g.Links (.stmt s) n → (t.before n).get x =
              if e.ReadsNac (t.before (.stmt s)) then .nac
              else Value.meetAll (((g.preds n).filter (· ≠ .stmt s)).map fun k => (t.after k).get x) := by
  have heval : ∀ env : Env, env.OnlyTracked → e.eval env = if e.ReadsNac env then .nac else .undef :=
    fun _ henv => hu.eval_eq he henv
  refine ⟨heval, fun m g hg => ?_⟩
  have hentry := Method.dst_ne_entry hg
  obtain ⟨t, ht, h⟩ := exists_solvesTo m hentry
  refine ⟨t, ht, fun s hs x hi hx => ?_⟩
  have htracked := ht.onlyTracked _ ((Method.stmt_mem_nodes hg).2 hs)
  have hafter := (h.after_assign hg hs hi hx).trans (heval _ htracked.1)
  refine ⟨hafter, fun n hn => ?_⟩
  split
  · next hnac =>
      rw [if_pos hnac] at hafter
      have hle := h.after_le_before hentry hn x
      rwa [hafter, Value.nac_le] at hle
  · next hnac =>
      rw [if_neg hnac] at hafter
      exact h.before_of_undef hentry hn hafter

/-- One branch sets a flag to one, the other to a comparison of two long parameters. -/
def compare : Method where
  name := "compare"
  params := [⟨"p", .prim .int⟩, ⟨"a", .prim .long⟩, ⟨"b", .prim .long⟩]
  locals := [⟨"f", .prim .boolean⟩]
  body :=
    let p : Var := ⟨"p", .prim .int⟩
    let a : Var := ⟨"a", .prim .long⟩
    let b : Var := ⟨"b", .prim .long⟩
    let f : Var := ⟨"f", .prim .boolean⟩
    [⟨0, .branch (.bin .gt (.var p) (.lit 0)) "other"⟩, ⟨1, .assign f (.lit 1)⟩, ⟨2, .goto "done"⟩,
      ⟨3, .label "other"⟩, ⟨4, .assign f (.bin .lt (.var a) (.var b))⟩, ⟨5, .label "done"⟩,
      ⟨6, .ret (some (.var f))⟩]

theorem solve_readsUntracked_compare :
    let f : Var := ⟨"f", .prim .boolean⟩
    let e : Exp := .bin .lt (.var ⟨"a", .prim .long⟩) (.var ⟨"b", .prim .long⟩)
    e.Plain ∧ e.ReadsUntracked ∧ ∃ g t, compare.graph = .ok g ∧ SolvesTo compare g t ∧
      (t.after (compare.nodeAt 4)).get f = .undef ∧ (t.before (compare.nodeAt 5)).get f = .const 1 := by
  intro f e
  have he : e.Plain := .bin .lt (.var _) (.var _)
  have hu : e.ReadsUntracked := ⟨⟨"a", .prim .long⟩, by decide, rfl⟩
  obtain ⟨g, hg, hlinks, hpreds, hreads, hval⟩ : ∃ g, compare.graph = .ok g ∧
      compare.nodeAt 5 ∈ g.succs (compare.nodeAt 4) ∧
      (g.preds (compare.nodeAt 5)).filter (· ≠ compare.nodeAt 4) = [compare.nodeAt 2] ∧
      ((solve (problem compare) g none).solution.ins.get? (compare.nodeAt 4)).map
        (fun env => decide (e.ReadsNac env)) = some false ∧
      ((solve (problem compare) g none).solution.outs.get? (compare.nodeAt 2)).map (·.get f) =
        some (.const 1) :=
    ⟨_, rfl, by decide +kernel, by decide +kernel, by decide +kernel, by decide +kernel⟩
  obtain ⟨-, hall⟩ := solve_readsUntracked he hu
  obtain ⟨t, ht, hassign⟩ := hall compare g hg
  have hmem := Method.nodeAt_mem_nodes hg
  rw [(ht.2 _ (hmem 4)).1, Option.map_some, Option.some.injEq, decide_eq_false_iff_not] at hreads
  rw [(ht.2 _ (hmem 2)).2, Option.map_some, Option.some.injEq] at hval
  obtain ⟨hafter, hjoin⟩ := hassign ⟨4, .assign f e⟩ (by decide) f rfl rfl
  refine ⟨he, hu, g, t, hg, ht, hafter.trans (if_neg hreads), ?_⟩
  calc (t.before (compare.nodeAt 5)).get f
      = Value.meetAll (((g.preds (compare.nodeAt 5)).filter (· ≠ compare.nodeAt 4)).map
          fun k => (t.after k).get f) :=
        (hjoin _ (Graph.mem_succs.1 hlinks)).trans (if_neg hreads)
    _ = .const 1 := by rw [hpreds, List.map_singleton, hval]; rfl

/-- The comparison is not `nac`, and after the join the flag is reported to be one. -/
theorem compare_reports_one :
    let f : Var := ⟨"f", .prim .boolean⟩
    let e : Exp := .bin .lt (.var ⟨"a", .prim .long⟩) (.var ⟨"b", .prim .long⟩)
    Env.OnlyTracked ∅ ∧ e.Plain ∧ e.ReadsUntracked ∧ e.eval ∅ ≠ .nac ∧
      ⟨4, .assign f e⟩ ∈ compare.body ∧ ∃ g, compare.graph = .ok g ∧
        ((solve (problem compare) g none).solution.ins.get? (compare.nodeAt 6)).map (·.get f) =
          some (.const 1) := by
  intro f e
  refine ⟨fun x hx => absurd (Env.get_empty x) hx, .bin .lt (.var _) (.var _),
    ⟨⟨"a", .prim .long⟩, by decide, rfl⟩, by decide, by decide, _, rfl, by decide +kernel⟩

end Propagation

end Dataflow
