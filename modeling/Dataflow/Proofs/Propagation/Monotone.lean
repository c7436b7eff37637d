import Dataflow.Propagation
import Dataflow.Proofs.Env.Order
import Dataflow.Proofs.Worklist.Termination

/-!
# Constant propagation is monotone

Evaluation, the flow through a node and with them the whole problem respect the order of environments.
In any run only the variables of `support` have a value, and each value is raised at most twice.
-/

namespace Dataflow

theorem Exp.eval_mono {env env' : Env} (h : env ≤ env') : (e : Exp) → e.eval env ≤ e.eval env'
  | .lit n => by simp only [eval]; exact le_refl _
  | .var x => by simp only [eval]; exact h x
  | .bin op a b => by
      simp only [eval]; exact Value.lift₂_mono op.fold (eval_mono h a) (eval_mono h b)
  | .unclassed _ a b => by
      simp only [eval]; exact Value.lift₂_mono _ (eval_mono h a) (eval_mono h b)
  | .neg _ | .cast .. | .call .. | .field .. => by simp only [eval]; exact le_refl _

namespace Propagation

theorem flow_mono (n : Node) {env env' : Env} (h : env ≤ env') : flow n env ≤ flow n env' := by
  unfold flow
  split
  · split
    · refine Env.set_mono _ h ?_
      cases n.instr.source? with
      | none => exact le_refl _
      | some e => exact e.eval_mono h
    · exact h
  · exact h

theorem transfer_antisymm (m : Method) (n : Node) (before after : Env) :
    AntisymmRel (· ≤ ·) ((problem m).transfer n before after).1 (flow n before) :=
  Env.assign_fst after (flow n before)

theorem problem_monotone (m : Method) : (problem m).Monotone where
  initial_le := Env.empty_le
  le_meet_left := Env.le_merge_left
  le_meet_right := Env.le_merge_right
  meet_le := Env.merge_le
  transfer_le n before before' after after' h :=
    (transfer_antisymm m n before after).1.trans
      ((flow_mono n h).trans (transfer_antisymm m n before' after').2)
  unchanged_iff _ _ _ := Env.assign_unchanged_iff

/-- Evaluation and transfer keep the order of environments, for every expression and every node, whatever
the constants of the environments are and whatever stood after the node. -/
theorem eval_transfer_mono (m : Method) {f g : Env} (h : ∀ x, f.get x ≤ g.get x) :
    (∀ e : Exp, e.eval f ≤ e.eval g) ∧
      ∀ n o o' x, ((problem m).transfer n f o).1.get x ≤ ((problem m).transfer n g o').1.get x :=
  ⟨fun e => e.eval_mono h, fun n o o' => (problem_monotone m).transfer_le n o o' h⟩

/-- The divisor is zero after wrapping, so the quotient is undefined in both environments; the sum is not
once the other operand rises. -/
theorem eval_transfer_mono_quotient :
    let k : Var := ⟨"k", .prim .int⟩
    let d : Var := ⟨"d", .prim .int⟩
    let e : Exp := .bin .add (.bin .div (.lit 7) (.var k)) (.unclassed .mul (.var d) (.var k))
    let f : Env := Env.set ∅ k (.const 4294967296)
    let g : Env := f.set d .nac
    let p := problem ⟨"quotient", [], [], []⟩
    (∀ x, f.get x ≤ g.get x) ∧ e.eval f = .undef ∧ e.eval g = .nac ∧ e.eval f ≤ e.eval g ∧
      ∀ o o' x, (p.transfer (.stmt ⟨0, .assign d e⟩) f o).1.get x ≤
        (p.transfer (.stmt ⟨0, .assign d e⟩) g o').1.get x := by
  intro k d e f g p
  have h : ∀ x, f.get x ≤ g.get x := by
    intro x
    rw [Env.get_set f]
    split
    · exact Value.le_nac _
    · exact le_refl _
  obtain ⟨heval, htransfer⟩ := eval_transfer_mono ⟨"quotient", [], [], []⟩ h
  exact ⟨h, by decide, by decide, heval e, htransfer _⟩

/-! ## Variables that can have a value -/

theorem get_foldl_boundary (l : List Var) (env : Env) (x : Var) :
    (l.foldl (fun env y => if y.tracked then env.set y .nac else env) env).get x =
      if x ∈ l ∧ x.tracked = true then .nac else env.get x := by
  induction l generalizing env with
  | nil => simp
  | cons y l ih =>
      rw [List.foldl_cons, ih]
      by_cases hyx : y = x
      · subst hyx
        by_cases hy : y.tracked = true
        · simp [hy, Env.get_set]
        · simp [hy]
      · have hget : (if y.tracked then env.set y .nac else env).get x = env.get x := by
          split
          · rw [Env.get_set, if_neg hyx]
          · rfl
        simp only [hget, List.mem_cons, Ne.symm hyx, false_or]

theorem get_boundary (m : Method) (x : Var) :
    (boundary m).get x = if x ∈ m.params ∧ x.tracked = true then .nac else .undef :=
  get_foldl_boundary m.params ∅ x

/-- Only these variables have a value. -/
def Within (vars : List Var) (env : Env) : Prop := ∀ x, env.get x ≠ .undef → x ∈ vars

/-- How often the values of the variables were raised. -/
def rank (vars : List Var) (env : Env) : Nat := total (vars.map fun x => (env.get x).rank)

theorem mem_support {g : Graph Node} {s : Solution Node Env} {x : Var} :
    x ∈ support g s ↔
      (∃ q ∈ s.ins.toList ++ s.outs.toList, q.2.get x ≠ .undef) ∨
        ∃ n ∈ g.nodes, n.instr.target? = some x ∧ x.tracked = true := by
  simp only [support, mem_distinct, List.mem_append, List.mem_flatMap, List.mem_filter,
    List.mem_filterMap, Env.mem_keys]
  refine or_congr_right ⟨?_, ?_⟩
  · rintro ⟨⟨n, hn, ht⟩, hx⟩
    exact ⟨n, hn, ht, hx⟩
  · rintro ⟨n, hn, ht, hx⟩
    exact ⟨⟨n, hn, ht⟩, hx⟩

theorem flow_get (n : Node) (env : Env) (x : Var) :
    (flow n env).get x = env.get x ∨ n.instr.target? = some x ∧ x.tracked = true := by
  unfold flow
  split
  · next y hy =>
      split
      · next ht =>
          rw [Env.get_set]
          by_cases h : y = x
          · exact .inr (h ▸ ⟨hy, ht⟩)
          · exact .inl (if_neg h)
      · exact .inl rfl
  · exact .inl rfl

theorem get_flow_self {n : Node} {x : Var} (h : n.instr.target? = some x) (hx : x.tracked = true)
    (env : Env) : (flow n env).get x = (n.instr.source?.map (·.eval env)).getD .nac := by
  simp [flow, h, hx, Env.get_set]

theorem get_flow_of_ne {n : Node} {x : Var} (h : n.instr.target? ≠ some x) (env : Env) :
    (flow n env).get x = env.get x :=
  (flow_get n env x).resolve_right fun ht => h ht.1

/-- What holds of every variable that a node defines holds, in a run, of all variables with a value. -/
theorem problem_keeps (m : Method) {g : Graph Node} {P : Var → Prop}
    (hP : ∀ n ∈ g.nodes, ∀ x, n.instr.target? = some x → x.tracked = true → P x) :
    (problem m).Keeps g fun env => ∀ x, env.get x ≠ .undef → P x where
  meet_ok {e f} he hf x hx := by
    change (e.merge f).get x ≠ .undef at hx
    rw [Env.get_merge] at hx
    by_cases h : f.get x = .undef
    · rw [h, Value.undef_meet] at hx
      exact he x hx
    · exact hf x h
  transfer_ok {n f o} hn hf _ x hx := by
    rw [Env.antisymm_iff.1 (transfer_antisymm m n f o) x] at hx
    rcases flow_get n f x with h | ⟨ht, hx'⟩
    · exact hf x (h ▸ hx)
    · exact hP n hn x ht hx'

theorem rank_le (vars : List Var) (env : Env) : rank vars env ≤ 2 * vars.length := by
  induction vars with
  | nil => exact Nat.le_refl 0
  | cons x vars ih =>
      have hx := (env.get x).rank_le_two
      simp only [rank, List.map_cons, total, List.foldr_cons, List.length_cons] at ih ⊢
      omega

theorem problem_finiteHeight (m : Method) (g : Graph Node) {vars : List Var}
    (hvars : ∀ n ∈ g.nodes, ∀ x, n.instr.target? = some x → x.tracked = true → x ∈ vars) :
    (problem m).FiniteHeight g (Within vars) (rank vars) (2 * vars.length) where
  meet_ok := (problem_keeps m hvars).meet_ok
  transfer_ok := (problem_keeps m hvars).transfer_ok
  rank_le := rank_le vars
  rank_mono h := total_map_le fun x _ => Value.rank_mono (h x)
  le_of_rank_le {f f'} hf' h hr x := by
    by_cases hx : x ∈ vars
    · refine Value.le_of_rank_le (h x) (Nat.not_lt.1 fun hlt => ?_)
      have hsum := total_map_add_le (k := 1) (fun y _ => Value.rank_mono (h y)) hx hlt
      exact absurd hsum (Nat.not_le_of_lt (Nat.lt_succ_of_le hr))
    · have hundef : f'.get x = .undef := by_contra fun hne => hx (hf' x hne)
      rw [hundef]
      exact Value.undef_le _

end Propagation

end Dataflow
