/-!
# Integers of 32 bits

An integer stands for the word of its low 32 bits, read as two's complement (`wrap32`) or as a
natural number (`bits32`).
-/

namespace Dataflow

/-- The number in `[-2^31, 2^31)` with the same low 32 bits. -/
def wrap32 (n : Int) : Int := n.bmod 4294967296

/-- The low 32 bits. -/
def bits32 (n : Int) : Nat := (n % 4294967296).toNat

theorem wrap32_ge (n : Int) : -2147483648 ≤ wrap32 n := by
  have := Int.le_bmod (x := n) (m := 4294967296) (by decide)
  simp only [wrap32]; omega

theorem wrap32_lt (n : Int) : wrap32 n < 2147483648 := by
  have := Int.bmod_lt (x := n) (m := 4294967296) (by decide)
  simp only [wrap32]; omega

theorem wrap32_of_range {n : Int} (h₁ : -2147483648 ≤ n) (h₂ : n < 2147483648) : wrap32 n = n := by
  simp only [wrap32]; exact Int.bmod_eq_of_le (by omega) (by omega)

@[simp] theorem wrap32_wrap32 (n : Int) : wrap32 (wrap32 n) = wrap32 n :=
  wrap32_of_range (wrap32_ge n) (wrap32_lt n)

end Dataflow
