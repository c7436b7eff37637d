import Dataflow.Proofs.Execution.Run
import Dataflow.Proofs.Propagation.Untracked

/-!
# Expressions on known words

An expression whose variables are all constants is evaluated as on machine words: to the constant of the
word that it yields, and to `undef` exactly if it divides by zero somewhere. One operand that is no single
integer makes any expression `nac`, whatever the other operands are.
-/

namespace Dataflow

/-- The words of the variables that are constants. -/
def Env.words (env : Env) : Store := fun x => (env.get x).int?.map (BitVec.ofInt 32)

/-- All that the expression reads are constants of 32 bits. -/
def Env.Knows (env : Env) (e : Exp) : Prop :=
  ∀ x ∈ e.reads, ∃ c, env.get x = .const c ∧ -2147483648 ≤ c ∧ c < 2147483648

/-- Somewhere in the expression a division or a remainder has the divisor zero. -/
inductive Exp.DividesByZero (σ : Store) : Exp → Prop
  | here {op : BinOp} {a b : Exp} {u : Word} : op = .div ∨ op = .rem → a.Yields σ u → b.Yields σ 0 →
      DividesByZero σ (.bin op a b)
  | left (op : BinOp) {a : Exp} (b : Exp) : DividesByZero σ a → DividesByZero σ (.bin op a b)
  | right (op : BinOp) (a : Exp) {b : Exp} : DividesByZero σ b → DividesByZero σ (.bin op a b)

/-- Some operand is a variable that is `nac`, or of a shape that is not followed. -/
inductive Exp.Varies (env : Env) : Exp → Prop
  | var {x : Var} : env.get x = .nac → Varies env (.var x)
  | neg (e : Exp) : Varies env (.neg e)
  | cast (t : Ty) (e : Exp) : Varies env (.cast t e)
  | call (method : String) (args : List Exp) : Varies env (.call method args)
  | field (x : Var) (name : String) : Varies env (.field x name)
  | left (op : BinOp) {a : Exp} (b : Exp) : Varies env a → Varies env (.bin op a b)
  | right (op : BinOp) (a : Exp) {b : Exp} : Varies env b → Varies env (.bin op a b)
  | unclassedLeft (op : BinOp) {a : Exp} (b : Exp) : Varies env a → Varies env (.unclassed op a b)
  | unclassedRight (op : BinOp) (a : Exp) {b : Exp} : Varies env b → Varies env (.unclassed op a b)

variable {env : Env} {e a b : Exp} {op : BinOp}

/-! ## Operands that are not known -/

theorem Exp.Varies.eval_eq (h : e.Varies env) : e.eval env = .nac := by
  induction h with
  | var hx => exact hx
  | neg e => simp [eval]
  | cast t e => simp [eval]
  | call method args => simp [eval]
  | field x name => simp [eval]
  | left op b _ ih => simp [eval, ih, Value.lift₂]
  | right op a _ ih => simp [eval, ih]
  | unclassedLeft op b _ ih => simp [eval, ih, Value.lift₂]
  | unclassedRight op a _ ih => simp [eval, ih]

theorem Exp.varies_of_eval_eq : (e : Exp) → e.eval env = .nac → e.Varies env
  | .lit n, h => by simp [eval, Value.ofInt] at h
  | .var x, h => .var h
  | .bin op a b, h => by
      rw [eval, Value.lift₂_eq_nac op.fold_ne_nac] at h
      cases h with
      | inl ha => exact .left op b (a.varies_of_eval_eq ha)
      | inr hb => exact .right op a (b.varies_of_eval_eq hb)
  | .unclassed op a b, h => by
      rw [eval, Value.lift₂_eq_nac (by simp)] at h
      cases h with
      | inl ha => exact .unclassedLeft op b (a.varies_of_eval_eq ha)
      | inr hb => exact .unclassedRight op a (b.varies_of_eval_eq hb)
  | .neg e, _ => .neg e
  | .cast t e, _ => .cast t e
  | .call method args, _ => .call method args
  | .field x name, _ => .field x name

/-! ## Operands that are known -/

namespace Env

theorem Knows.left (h : env.Knows (.bin op a b)) : env.Knows a :=
  fun x hx => h x (List.mem_append_left _ hx)

theorem Knows.right (h : env.Knows (.bin op a b)) : env.Knows b :=
  fun x hx => h x (List.mem_append_right _ hx)

theorem Knows.get_var {x : Var} (h : env.Knows (.var x)) :
    ∃ w, env.words x = some w ∧ env.get x = .const w.toInt := by
  obtain ⟨c, hc, hmin, hmax⟩ := h x List.mem_cons_self
  refine ⟨BitVec.ofInt 32 c, by simp [words, hc, Value.int?], ?_⟩
  rw [hc, ← BinOp.wrap32_eq_toInt, wrap32_of_range hmin hmax]

theorem Knows.eval_ne_nac (h : env.Knows e) (he : e.Plain) : e.eval env ≠ .nac := by
  rw [Ne, he.eval_eq_nac]
  rintro ⟨x, hx, hnac⟩
  obtain ⟨c, hc, -⟩ := h x hx
  rw [hc] at hnac
  cases hnac

end Env

namespace Exp

theorem Yields.eval_eq {w : Word} (h : e.Yields env.words w) (he : e.Plain) (hk : env.Knows e) :
    e.eval env = .const w.toInt := by
  induction h with
  | @lit n => rw [eval, Value.ofInt, BinOp.wrap32_eq_toInt]
  | @var x w hw =>
      obtain ⟨w', hw', hget⟩ := hk.get_var
      rw [hw] at hw'
      cases hw'
      exact hget
  | @bin op a b u v w _ _ hop iha ihb =>
      cases he with
      | bin _ ha hb =>
          rw [eval, iha ha hk.left, ihb hb hk.right]
          exact (op.fold_toInt u v).trans (by rw [hop]; rfl)
  | neg => cases he
  | cast => cases he
  | call => cases he
  | field => cases he

theorem DividesByZero.eval_eq (h : e.DividesByZero env.words) (he : e.Plain) (hk : env.Knows e) :
    e.eval env = .undef := by
  induction h with
  | @here op a b u hop hu hzero =>
      cases he with
      | bin _ ha hb =>
          rw [eval, hu.eval_eq ha hk.left, hzero.eval_eq hb hk.right]
          refine (op.fold_toInt u 0).trans ?_
          rcases hop with rfl | rfl <;> rfl
  | left op b _ ih =>
      cases he with
      | bin _ ha hb =>
          exact Value.lift₂_eq_undef (hk.left.eval_ne_nac ha) (hk.right.eval_ne_nac hb)
            (.inl (ih ha hk.left))
  | right op a _ ih =>
      cases he with
      | bin _ ha hb =>
          exact Value.lift₂_eq_undef (hk.left.eval_ne_nac ha) (hk.right.eval_ne_nac hb)
            (.inr (ih hb hk.right))

theorem Plain.yields_or_divides (he : e.Plain) (hk : env.Knows e) :
    (∃ w, e.Yields env.words w) ∨ e.DividesByZero env.words := by
  induction he with
  | lit n => exact .inl ⟨_, .lit⟩
  | var x =>
      obtain ⟨w, hw, -⟩ := hk.get_var
      exact .inl ⟨w, .var hw⟩
  | @bin op a b _ _ iha ihb =>
      rcases iha hk.left with ⟨u, hu⟩ | ha
      · rcases ihb hk.right with ⟨v, hv⟩ | hb
        · cases hop : op.onWords u v with
          | some w => exact .inl ⟨w, .bin hu hv hop⟩
          | none =>
              obtain ⟨hdiv, rfl⟩ := BinOp.onWords_eq_none.1 hop
              exact .inr (.here hdiv hu hv)
        · exact .inr (.right op a hb)
      · exact .inr (.left op b ha)

/-- An expression of literals, variables and operators whose variables are constants of 32 bits either yields
a word or divides by zero. In the first case its value is the constant of that word, which is in range, in
the second it is `undef`. And any expression at all is `nac` exactly if one of its operands is a variable that
is `nac` or has a shape that is not followed. -/
theorem eval_exact (env : Env) (e : Exp) :
    (e.Plain → env.Knows e →
      ((∃ w, e.Yields env.words w) ∨ e.DividesByZero env.words) ∧
        (∀ w, e.Yields env.words w → e.eval env = .const w.toInt ∧
          -2147483648 ≤ w.toInt ∧ w.toInt < 2147483648) ∧
        (e.DividesByZero env.words → e.eval env = .undef)) ∧
      (e.eval env = .nac ↔ e.Varies env) := by
  constructor
  · intro he hk
    refine ⟨he.yields_or_divides hk, ?_, fun h => h.eval_eq he hk⟩
    intro w hw
    exact ⟨hw.eval_eq he hk, BitVec.le_toInt w, BitVec.toInt_lt⟩
  · exact ⟨e.varies_of_eval_eq, fun h => h.eval_eq⟩

/-- `2147483648 / -1 >>> 33 % x` for `x = -7`: the literal and the quotient wrap, and the shift is by one. -/
theorem eval_exact_corners :
    let x : Var := ⟨"x", .prim .int⟩
    let env : Env := .ofList [(x, .const (-7))]
    let e : Exp := .bin .rem (.bin .ushr (.bin .div (.lit 2147483648) (.lit (-1))) (.lit 33)) (.var x)
    e.Plain ∧ env.Knows e ∧ e.eval env = .const 1 ∧
      (Exp.bin .add e (.bin .div (.lit 0) (.lit 4294967296))).eval env = .undef ∧
      (Exp.bin .div (.cast (.prim .byte) e) (.lit 0)).eval env = .nac := by
  intro x env e
  have he : e.Plain := .bin .rem (.bin .ushr (.bin .div (.lit _) (.lit _)) (.lit _)) (.var x)
  have hx : env.get x = .const (-7) := by decide
  have hk : env.Knows e := fun y hy => by
    cases hy with
    | head => exact ⟨-7, hx, by decide, by decide⟩
    | tail _ hy => cases hy
  have hy : e.Yields env.words 1 := .bin (.bin (.bin .lit .lit rfl) .lit rfl) (.var rfl) rfl
  have hzero : (Exp.bin .div (.lit 0) (.lit 4294967296)).DividesByZero env.words :=
    .here (.inl rfl) .lit .lit
  have hk' : env.Knows (.bin .add e (.bin .div (.lit 0) (.lit 4294967296))) := fun y hy => hk y hy
  refine ⟨he, hk, (((eval_exact env e).1 he hk).2.1 1 hy).1, ?_, ?_⟩
  · exact ((eval_exact env _).1 (.bin .add he (.bin .div (.lit 0) (.lit _))) hk').2.2 (.right .add e hzero)
  · exact (eval_exact env _).2.2 (.left .div _ (.cast _ e))

end Exp

end Dataflow
