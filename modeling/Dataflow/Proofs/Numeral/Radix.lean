import Dataflow.Proofs.Numeral.Decimal

/-!
# Powers of sixteen

A numeral with a radix in front is read whatever its length, so that an integer can have more decimal digits
than may be written.
-/

namespace Dataflow.Numeral

variable {limit : Option Nat}

/-- The numeral of a power of sixteen after its radix. -/
def powerText (n : Nat) : String := String.ofList ('0' :: 'x' :: '1' :: List.replicate n '0')

theorem toList_powerText (n : Nat) : (powerText n).toList = '0' :: 'x' :: '1' :: List.replicate n '0' :=
  String.toList_ofList

theorem graphic_of_mem_powerText {n : Nat} {c : Char} (h : c ∈ (powerText n).toList) :
    0x20 < c.toNat ∧ c.toNat < 0x7f := by
  simp only [toList_powerText, List.mem_cons, List.mem_replicate] at h
  obtain rfl | rfl | rfl | ⟨-, rfl⟩ := h
  all_goals decide

theorem trimmed_powerText (n : Nat) : Text.Trimmed Text.isBlank (powerText n).toList :=
  .of_graphic fun _ => graphic_of_mem_powerText

theorem value_replicate_zero (radix start n : Nat) :
    (List.replicate n '0').foldl (fun k c => k * radix + digit c) start = start * radix ^ n := by
  induction n generalizing start with
  | zero => simp
  | succ n ih =>
      have hzero : digit '0' = 0 := rfl
      rw [List.replicate_succ, List.foldl_cons, ih, hzero, Nat.add_zero, Nat.pow_succ, Nat.mul_assoc,
        Nat.mul_comm radix]

theorem literal?_powerText (n : Nat) : literal? limit (powerText n).toList = some (16 ^ n) := by
  have hradix : radix? 'x' = some 16 := rfl
  have hdigits : digits? 16 ('1' :: List.replicate n '0') = some ('1' :: List.replicate n '0') := by
    refine ungroup_of_all (List.cons_ne_nil _ _) (fun c hc => ?_) ?_
    · have hc' : c = '1' ∨ c = '0' := by
        simp only [List.mem_cons, List.mem_replicate] at hc
        tauto
      obtain rfl | rfl := hc' <;> rfl
    · simp [List.mem_replicate]
  have hvalue : value 16 ('1' :: List.replicate n '0') = 16 ^ n := by
    rw [value, List.foldl_cons, value_replicate_zero]
    exact Nat.one_mul _
  have hafter : afterRadix ('1' :: List.replicate n '0') = '1' :: List.replicate n '0' := rfl
  rw [toList_powerText, literal?, hradix]
  simp only [hafter, hdigits, Option.map_some, hvalue]

theorem parseLiteral?_powerText (n : Nat) : parseLiteral? limit (powerText n) = some (16 ^ n : Int) := by
  have hsign : sign (powerText n).toList = (false, (powerText n).toList) := by
    rw [toList_powerText]
    rfl
  rw [parseLiteral?, plain_of_graphic fun c => graphic_of_mem_powerText]
  simp only [Option.bind_eq_bind, Option.bind_some, hsign, literal?_powerText, Option.pure_def]
  simp [signed]

theorem not_fits_pow {most n : Nat} (h : most ≤ 43 * n) : fits (some most) (16 ^ (36 * n)) = false := by
  have hle : 10 ^ most ≤ 16 ^ (36 * n) := by
    calc 10 ^ most ≤ 10 ^ (43 * n) := Nat.pow_le_pow_right (by decide) h
      _ = (10 ^ 43) ^ n := Nat.pow_mul 10 43 n
      _ ≤ (16 ^ 36) ^ n := Nat.pow_le_pow_left (by decide) n
      _ = 16 ^ (36 * n) := (Nat.pow_mul 16 36 n).symm
  have habs : ((16 : Int) ^ (36 * n)).natAbs = 16 ^ (36 * n) := Int.natAbs_pow 16 _
  exact decide_eq_false (Nat.not_lt.2 (habs ▸ hle))

end Dataflow.Numeral
