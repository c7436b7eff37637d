import Dataflow.Proofs.Propagation.Solving
import Dataflow.Proofs.Worklist.Invariant

/-!
# What the facts of a run can contain

Wherever a run is, its facts bind only variables that fit a 32-bit integer and that are parameters or
targets of statements, and bind them only to constants of 32 bits or to `nac`, whatever the literals of
the method are.
-/

namespace Dataflow

/-! ## Constants that fit 32 bits -/

/-- Wrapping changes nothing. -/
def Value.InRange : Value → Prop
  | const n => wrap32 n = n
  | _ => True

def Env.InRange (env : Env) : Prop := ∀ x, (env.get x).InRange

variable {env env' : Env}

theorem Value.InRange.meet {a b : Value} (ha : a.InRange) (hb : b.InRange) : (a.meet b).InRange := by
  cases a with
  | undef => rwa [undef_meet]
  | const m => cases b with
    | undef => exact ha
    | const n =>
        rw [Value.meet]
        split
        · exact ha
        · trivial
    | nac => trivial
  | nac => trivial

theorem Value.lift₂_inRange {f : Int → Int → Value} (hf : ∀ a b, (f a b).InRange) (v w : Value) :
    (lift₂ f v w).InRange := by
  unfold lift₂
  split
  · trivial
  · trivial
  · exact hf _ _
  · trivial

theorem BinOp.fold_inRange (op : BinOp) (a b : Int) : (op.fold a b).InRange := by
  unfold fold
  split
  · exact wrap32_wrap32 _
  · trivial

theorem Exp.eval_inRange (h : env.InRange) : (e : Exp) → (e.eval env).InRange
  | .lit n => by simp only [eval]; exact wrap32_wrap32 n
  | .var x => by simp only [eval]; exact h x
  | .bin op _ _ => by simp only [eval]; exact Value.lift₂_inRange op.fold_inRange _ _
  | .unclassed .. => by
      simp only [eval]; exact Value.lift₂_inRange (f := fun _ _ => .undef) (fun _ _ => trivial) _ _
  | .neg _ | .cast .. | .call .. | .field .. => by simp only [eval]; trivial

theorem Env.InRange.set (h : env.InRange) (x : Var) {v : Value} (hv : v.InRange) :
    (env.set x v).InRange := by
  intro y
  rw [Env.get_set]
  split
  · exact hv
  · exact h y

theorem Env.InRange.of_antisymm (h : env.InRange) (he : AntisymmRel (· ≤ ·) env' env) :
    env'.InRange := fun x => Env.antisymm_iff.1 he x ▸ h x

namespace Propagation

open Worklist

variable {m : Method} {g : Graph Node} {t : Facts Node Env}

theorem inRange_boundary (m : Method) : (boundary m).InRange := by
  intro x
  rw [get_boundary]
  split <;> trivial

theorem inRange_flow (h : env.InRange) (n : Node) : (flow n env).InRange := by
  unfold flow
  split
  · split
    · refine h.set _ ?_
      cases n.instr.source? with
      | none => trivial
      | some e => exact e.eval_inRange h
    · exact h
  · exact h

theorem problem_keeps_inRange (m : Method) (g : Graph Node) : (problem m).Keeps g Env.InRange where
  meet_ok {e f} he hf x := by
    change ((e.merge f).get x).InRange
    rw [Env.get_merge]
    exact (hf x).meet (he x)
  transfer_ok {n f o} _ hf _ := (inRange_flow hf n).of_antisymm (transfer_antisymm m n f o)

/-- Every constant of the solution fits 32 bits. -/
theorem SolvesTo.inRange (h : SolvesTo m g t) : AllOk g Env.InRange t :=
  solve_allOk (problem_keeps_inRange m g) rfl (fun _ => trivial) (inRange_boundary m) none h.2

end Propagation

/-! ## Bindings of a whole run -/

/-- A variable that is followed and that is a parameter or the target of a statement. -/
def Method.Tracks (m : Method) (x : Var) : Prop :=
  x.tracked = true ∧ (x ∈ m.params ∨ ∃ s ∈ m.body, s.instr.target? = some x)

/-- The bindings that a fact of the method may have. -/
structure Method.Admits (m : Method) (env : Env) : Prop where
  tracks : ∀ p ∈ env.bindings.toList, m.Tracks p.1
  narrow : ∀ p ∈ env.bindings.toList, ∃ k, p.1.type = .prim k ∧ k ∉ [Prim.long, .float, .double]
  defined : ∀ p ∈ env.bindings.toList, p.2 ≠ .undef
  range : ∀ p ∈ env.bindings.toList, ∀ c, p.2 = .const c → -2147483648 ≤ c ∧ c < 2147483648

theorem Var.narrow_of_tracked {x : Var} (h : x.tracked = true) :
    ∃ k, x.type = .prim k ∧ k ∉ [Prim.long, .float, .double] := by
  rw [Var.tracked] at h
  cases ht : x.type with
  | prim k =>
      rw [ht] at h
      refine ⟨k, rfl, fun hk => ?_⟩
      simp only [List.mem_cons, List.not_mem_nil, or_false] at hk
      rcases hk with rfl | rfl | rfl <;> cases h
  | ref s =>
      rw [ht] at h
      cases h

theorem Value.InRange.bounds {c : Int} (h : (const c).InRange) :
    -2147483648 ≤ c ∧ c < 2147483648 := by
  have hwrap : wrap32 c = c := h
  exact ⟨hwrap ▸ wrap32_ge c, hwrap ▸ wrap32_lt c⟩

theorem Method.admits_of_get {m : Method} (hvars : ∀ x, env.get x ≠ .undef → m.Tracks x)
    (hrange : env.InRange) : m.Admits env := by
  have hget : ∀ p ∈ env.bindings.toList, env.get p.1 = p.2 ∧ p.2 ≠ .undef := fun p hp =>
    Env.get?_bindings.1 (OrderedMap.get?_eq_some_iff.2 hp)
  have htracks : ∀ p ∈ env.bindings.toList, m.Tracks p.1 := fun p hp =>
    hvars p.1 ((hget p hp).1 ▸ (hget p hp).2)
  refine ⟨htracks, fun p hp => Var.narrow_of_tracked (htracks p hp).1, env.defined, ?_⟩
  intro p hp c hc
  have hvalue := hrange p.1
  rw [(hget p hp).1, hc] at hvalue
  exact hvalue.bounds

namespace Propagation

open Worklist

variable {m : Method} {g : Graph Node} {x : Var}

theorem tracks_of_boundary (h : (boundary m).get x ≠ .undef) : m.Tracks x := by
  rw [get_boundary] at h
  by_cases hparam : x ∈ m.params ∧ x.tracked = true
  · exact ⟨hparam.2, .inl hparam.1⟩
  · exact absurd (if_neg hparam) h

theorem problem_keeps_tracks (hg : m.graph = .ok g) :
    (problem m).Keeps g fun env => ∀ x, env.get x ≠ .undef → m.Tracks x := by
  refine problem_keeps m fun n hn x ht hx => ⟨hx, .inr ?_⟩
  cases n with
  | entry => cases ht
  | exit => cases ht
  | stmt s => exact ⟨s, (Method.stmt_mem_nodes hg).1 hn, ht⟩

/-- Every state of a run from the start, after any number of steps, has both facts at every node, and all
its facts are ones that the method admits. So are all facts that solving leaves, whatever the limit. -/
theorem run_admits (hg : m.graph = .ok g) :
    (∀ vs s, Visits (problem m) g ⟨startForward (problem m) g, seed g⟩ vs s →
      (∃ t, s.solution.Holds g t) ∧ s.solution.All m.Admits) ∧
      ∀ limit, (solve (problem m) g limit).solution.All m.Admits := by
  have hrun : ∀ vs s, Visits (problem m) g ⟨startForward (problem m) g, seed g⟩ vs s →
      (∃ t, s.solution.Holds g t) ∧ s.solution.All m.Admits := by
    intro vs s h
    obtain ⟨hholds, hall⟩ := h.all_of_start
      ((problem_keeps_tracks hg).and (problem_keeps_inRange m g))
      ⟨fun x hx => absurd (Env.get_empty x) hx, fun _ => trivial⟩
      ⟨fun _ => tracks_of_boundary, inRange_boundary m⟩
    exact ⟨hholds, fun q hq => m.admits_of_get (hall.ins q hq).1 (hall.ins q hq).2,
      fun q hq => m.admits_of_get (hall.outs q hq).1 (hall.outs q hq).2⟩
  refine ⟨hrun, fun limit => ?_⟩
  obtain ⟨s, hv, hins, houts⟩ := solve_visits (p := problem m) (g := g) rfl limit
  have hall := (hrun _ s hv).2
  exact ⟨hins ▸ hall.ins, houts ▸ hall.outs⟩

/-- Three visits bring the constant that the body starts with into the facts. -/
theorem run_admits_countdown :
    ∃ g, countdown.graph = .ok g ∧
      (∀ vs s, Visits (problem countdown) g ⟨startForward (problem countdown) g, seed g⟩ vs s →
        (∃ t, s.solution.Holds g t) ∧ s.solution.All countdown.Admits) ∧
      ((solve (problem countdown) g (some 3)).solution.outs.get? (countdown.nodeAt 0)).map
        (·.get ⟨"k", .prim .int⟩) = some (.const 5) ∧
      (solve (problem countdown) g (some 3)).solution.All countdown.Admits := by
  obtain ⟨g, hg, hval⟩ : ∃ g, countdown.graph = .ok g ∧
      ((solve (problem countdown) g (some 3)).solution.outs.get? (countdown.nodeAt 0)).map
        (·.get ⟨"k", .prim .int⟩) = some (.const 5) := ⟨_, rfl, by decide +kernel⟩
  obtain ⟨hrun, hsolve⟩ := run_admits hg
  exact ⟨g, hg, hrun, hval, hsolve (some 3)⟩

end Propagation

end Dataflow
