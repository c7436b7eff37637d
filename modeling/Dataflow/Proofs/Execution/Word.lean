import Dataflow.Operator

/-!
# Operators on machine words

What the operators do to words of 32 bits, said without integers. On the integers that words stand for,
the exact result of an operator has the bits of the result on words.
-/

namespace Dataflow

/-- A word of 32 bits; as an integer it is read as two's complement. -/
abbrev Word := BitVec 32

namespace BinOp

/-- The operator on words; dividing by zero has no result. -/
def onWords (u w : Word) : BinOp → Option Word
  | add => some (u + w)
  | sub => some (u - w)
  | mul => some (u * w)
  | div => if w = 0 then none else some (u.sdiv w)
  | rem => if w = 0 then none else some (u.srem w)
  | eq => some (if u = w then 1 else 0)
  | ne => some (if u ≠ w then 1 else 0)
  | lt => some (if u.slt w then 1 else 0)
  | le => some (if u.sle w then 1 else 0)
  | gt => some (if w.slt u then 1 else 0)
  | ge => some (if w.sle u then 1 else 0)
  | shl => some (u <<< (w.toNat % 32))
  | shr => some (u.sshiftRight (w.toNat % 32))
  | ushr => some (u >>> (w.toNat % 32))
  | or => some (u ||| w)
  | and => some (u &&& w)
  | xor => some (u ^^^ w)

/-- Only division and remainder fail, and only on zero. -/
theorem onWords_eq_none {u w : Word} {op : BinOp} :
    op.onWords u w = none ↔ (op = .div ∨ op = .rem) ∧ w = 0 := by
  cases op <;> simp [onWords]

/-! ## Integers of words -/

theorem wrap32_eq_toInt (n : Int) : wrap32 n = (BitVec.ofInt 32 n).toInt := by
  rw [BitVec.toInt_ofInt]
  rfl

theorem wrap32_toInt (w : Word) : wrap32 w.toInt = w.toInt := w.toInt_bmod_cancel

theorem bits32_toInt (w : Word) : bits32 w.toInt = w.toNat := by
  have hlt := w.isLt
  rw [bits32, BitVec.toInt_eq_toNat_cond]
  split <;> omega

theorem distance_toInt (w : Word) : distance w.toInt = w.toNat % 32 := by
  have hlt := w.isLt
  rw [distance, BitVec.toInt_eq_toNat_cond]
  split <;> omega

theorem toInt_eq_zero {w : Word} : w.toInt = 0 ↔ w = 0 := by
  rw [← BitVec.toInt_inj]
  exact Iff.rfl

theorem ofInt_toNat (w : Word) : BitVec.ofInt 32 w.toNat = w := by
  rw [BitVec.ofInt_natCast, BitVec.ofNat_toNat, BitVec.setWidth_eq]

theorem ofInt_pow (k : Nat) : BitVec.ofInt 32 (Nat.pow 2 k : Nat) = BitVec.twoPow 32 k := by
  rw [BitVec.ofInt_natCast]
  exact BitVec.eq_of_toNat_eq (by rw [BitVec.toNat_twoPow, BitVec.toNat_ofNat]; rfl)

theorem ofInt_tdiv (u w : Word) : BitVec.ofInt 32 (u.toInt.tdiv w.toInt) = u.sdiv w :=
  BitVec.eq_of_toInt_eq (by rw [BitVec.toInt_ofInt, BitVec.toInt_sdiv])

theorem ofInt_truth (p : Prop) [Decidable p] :
    BitVec.ofInt 32 (truth (decide p)) = if p then 1 else 0 := by
  by_cases h : p
  · rw [decide_eq_true h, if_pos h]
    rfl
  · rw [decide_eq_false h, if_neg h]
    rfl

/-! ## Results -/

theorem map_result? (op : BinOp) (u w : Word) :
    (op.result? u.toInt w.toInt).map (BitVec.ofInt 32) = op.onWords u w := by
  cases op with
  | add => simp only [result?, onWords, Option.map_some, BitVec.ofInt_add, BitVec.ofInt_toInt]
  | sub =>
      simp only [result?, onWords, Option.map_some, Int.sub_eq_add_neg, BitVec.ofInt_add,
        BitVec.ofInt_neg, BitVec.ofInt_toInt, BitVec.sub_eq_add_neg]
  | mul => simp only [result?, onWords, Option.map_some, BitVec.ofInt_mul, BitVec.ofInt_toInt]
  | div =>
      simp only [result?, onWords, toInt_eq_zero]
      split
      · rfl
      · rw [Option.map_some, ofInt_tdiv]
  | rem =>
      simp only [result?, onWords, toInt_eq_zero]
      split
      · rfl
      · rw [Option.map_some, ← BitVec.toInt_srem, BitVec.ofInt_toInt]
  | eq => simp only [result?, onWords, Option.map_some, ofInt_truth, BitVec.toInt_inj]
  | ne => simp only [result?, onWords, Option.map_some, ofInt_truth, BitVec.toInt_ne]
  | lt => simp only [result?, onWords, Option.map_some, ofInt_truth, BitVec.slt_iff_toInt_lt]
  | le => simp only [result?, onWords, Option.map_some, ofInt_truth, BitVec.sle_iff_toInt_le]
  | gt => simp only [result?, onWords, Option.map_some, ofInt_truth, BitVec.slt_iff_toInt_lt]
  | ge => simp only [result?, onWords, Option.map_some, ofInt_truth, BitVec.sle_iff_toInt_le]
  | shl =>
      simp only [result?, onWords, Option.map_some, distance_toInt, BitVec.ofInt_mul, ofInt_pow,
        BitVec.ofInt_toInt, BitVec.shiftLeft_eq_mul_twoPow]
  | shr =>
      simp only [result?, onWords, Option.map_some, distance_toInt]
      rw [← BitVec.toInt_sshiftRight, BitVec.ofInt_toInt]
  | ushr =>
      simp only [result?, onWords, Option.map_some, distance_toInt, bits32_toInt]
      rw [← BitVec.toNat_ushiftRight, ofInt_toNat]
  | or =>
      simp only [result?, onWords, Option.map_some, bits32_toInt]
      rw [← BitVec.toNat_or, ofInt_toNat]
  | and =>
      simp only [result?, onWords, Option.map_some, bits32_toInt]
      rw [← BitVec.toNat_and, ofInt_toNat]
  | xor =>
      simp only [result?, onWords, Option.map_some, bits32_toInt]
      rw [← BitVec.toNat_xor, ofInt_toNat]

theorem fold_toInt (op : BinOp) (u w : Word) :
    op.fold u.toInt w.toInt = ((op.onWords u w).map fun r => .const r.toInt).getD .undef := by
  rw [fold, wrap32_toInt, wrap32_toInt, ← map_result?]
  cases op.result? u.toInt w.toInt with
  | none => rfl
  | some n => simp only [Value.ofInt, wrap32_eq_toInt, Option.map_some, Option.getD_some]

end BinOp

end Dataflow
