import Dataflow.Numeral.Integer
import Dataflow.Proofs.Text.Split
import Mathlib.Data.Nat.Digits.Defs

/-!
# Decimal numerals

The decimal numeral of an integer is read as this integer, wherever there may be so many digits.
-/

namespace Dataflow.Numeral

variable {n k : Nat} {c : Char} {cs : List Char} {limit : Option Nat} {p : Char → Bool}

/-! ## Digits -/

theorem digit_of_isDigit (h : c.isDigit = true) : digit c = c.toNat - '0'.toNat := by
  rw [digit, if_pos h]

theorem digit_lt_ten (h : c.isDigit = true) : digit c < 10 := by
  have hle : c.toNat ≤ 57 := (Char.isDigit_iff_toNat.1 h).2
  rw [digit_of_isDigit h]
  change c.toNat - 48 < 10
  omega

theorem value_of_isDigit (h : ∀ c ∈ cs, c.isDigit = true) : value 10 cs = Nat.ofDigitChars 10 cs 0 := by
  rw [value, Nat.ofDigitChars_eq_foldl]
  refine List.foldl_ext _ _ 0 fun n c hc => ?_
  rw [digit_of_isDigit (h c hc), Nat.mul_comm]

theorem ungroup_of_all (hne : cs ≠ []) (hp : ∀ c ∈ cs, p c = true) (hscore : '_' ∉ cs) :
    ungroup p cs = some cs := by
  induction cs with
  | nil => exact absurd rfl hne
  | cons c r ih =>
      have hc : p c = true := hp c List.mem_cons_self
      rw [List.mem_cons, not_or] at hscore
      cases r with
      | nil => simp [ungroup, hc]
      | cons d r =>
          have hd : d ≠ '_' := fun hd => hscore.2 (hd ▸ List.mem_cons_self)
          have hr := ih (List.cons_ne_nil d r) (fun e he => hp e (List.mem_cons_of_mem c he)) hscore.2
          rw [ungroup, if_pos hc, hr]
          · rfl
          · exact nofun
          · intro r' hr'
            exact hd (List.cons.inj hr').1

/-! ## Numerals of natural numbers -/

theorem isDigit_toDigits (h : c ∈ Nat.toDigits 10 n) : c.isDigit = true :=
  Nat.isDigit_of_mem_toDigits (by decide) (by decide) h

theorem digits?_toDigits (n : Nat) : digits? 10 (Nat.toDigits 10 n) = some (Nat.toDigits 10 n) :=
  ungroup_of_all Nat.toDigits_ne_nil (fun _ hc => decide_eq_true (digit_lt_ten (isDigit_toDigits hc)))
    Nat.underscore_not_in_toDigits

theorem decimal?_toDigits (h : allows limit (Nat.toDigits 10 n).length = true) :
    decimal? limit (Nat.toDigits 10 n) = some n := by
  simp [decimal?, digits?_toDigits, h, value_of_isDigit fun _ hc => isDigit_toDigits hc]

theorem head?_toDigits (h : n ≠ 0) : (Nat.toDigits 10 n).head? ≠ some '0' := by
  induction n using Nat.strongRecOn with
  | ind n ih =>
      rw [Nat.toDigits_eq_if (by decide)]
      split
      · next hlt =>
          simp only [List.head?_cons, ne_eq, Option.some.injEq]
          intro hzero
          exact h (Nat.digitChar_eq_zero.1 hzero)
      · next hge =>
          rw [List.head?_append_of_ne_nil _ Nat.toDigits_ne_nil]
          exact ih (n / 10) (by omega) (by omega)

theorem literal?_toDigits (h : allows limit (Nat.toDigits 10 n).length = true) :
    literal? limit (Nat.toDigits 10 n) = some n := by
  unfold literal?
  split
  -- a numeral with a zero in front has no other digit
  · next hcons =>
      by_cases hn : n = 0
      · rw [hn, Nat.toDigits_zero] at hcons
        cases hcons
      · have hhead := head?_toDigits hn
        rw [hcons] at hhead
        exact absurd rfl hhead
  · exact decimal?_toDigits h

/-! ## Numerals of integers -/

theorem toList_toString (n : Int) :
    (toString n).toList = (if n < 0 then ['-'] else []) ++ Nat.toDigits 10 n.natAbs := by
  rw [Int.toString_eq_repr, Int.repr_eq_if]
  split
  · next h =>
      rw [if_neg (by omega), List.nil_append, Nat.repr_eq_ofList_toDigits, String.toList_ofList,
        show n.toNat = n.natAbs by omega]
  · next h =>
      rw [if_pos (by omega), String.toList_append, Nat.repr_eq_ofList_toDigits,
        show (-n).toNat = n.natAbs by omega]
      exact congrArg (['-'] ++ ·) String.toList_ofList

theorem eq_minus_or_isDigit {n : Int} (h : c ∈ (toString n).toList) : c = '-' ∨ c.isDigit = true := by
  rw [toList_toString, List.mem_append] at h
  cases h with
  | inl h =>
      split at h
      · exact .inl (List.mem_singleton.1 h)
      · cases h
  | inr h => exact .inr (isDigit_toDigits h)

theorem graphic_of_mem {n : Int} (h : c ∈ (toString n).toList) : 0x20 < c.toNat ∧ c.toNat < 0x7f := by
  cases eq_minus_or_isDigit h with
  | inl h =>
      rw [h]
      decide
  | inr h =>
      have hmin : 48 ≤ c.toNat := (Char.isDigit_iff_toNat.1 h).1
      have hmax : c.toNat ≤ 57 := (Char.isDigit_iff_toNat.1 h).2
      omega

theorem mapM_plain? (h : ∀ c ∈ cs, c.toNat < 127) : cs.mapM plain? = some cs := by
  induction cs with
  | nil => rfl
  | cons c cs ih =>
      have hc : plain? c = some c := if_pos (h c List.mem_cons_self)
      simp [List.mapM_cons, hc, ih fun d hd => h d (List.mem_cons_of_mem c hd)]

theorem plain_of_graphic {s : String} (h : ∀ c ∈ s.toList, 0x20 < c.toNat ∧ c.toNat < 0x7f) :
    plain s = some s.toList := by
  have htrimmed : Text.Trimmed Text.isAsciiBlank s.toList := (Text.Trimmed.of_graphic h).ascii
  rw [plain, mapM_plain? fun c hc => (h c hc).2, Option.map_some, htrimmed.trimChars_eq]

theorem sign_toString (n : Int) :
    sign (toString n).toList = (decide (n < 0), Nat.toDigits 10 n.natAbs) := by
  rw [toList_toString]
  split
  · next h => simp [sign, h]
  · next h =>
      have hdigit : ∀ c ∈ Nat.toDigits 10 n.natAbs, c.isDigit = true := fun c hc => isDigit_toDigits hc
      rw [List.nil_append, decide_eq_false h, sign.eq_def]
      split
      · next hcons => exact absurd (hdigit _ (hcons ▸ List.mem_cons_self)) (by decide)
      · next hcons => exact absurd (hdigit _ (hcons ▸ List.mem_cons_self)) (by decide)
      · rfl

theorem allows_of_fits {n : Int} (h : fits limit n = true) (hlimit : limit ≠ some 0) :
    allows limit (Nat.toDigits 10 n.natAbs).length = true := by
  cases limit with
  | none => rfl
  | some most =>
      have hmost : 0 < most := Nat.pos_of_ne_zero fun h => hlimit (by rw [h])
      rw [fits, decide_eq_true_eq] at h
      rw [allows, decide_eq_true_eq]
      exact (Nat.length_toDigits_le_iff (by decide) hmost).2 h

theorem parseLiteral?_toString {n : Int} (h : fits limit n = true) (hlimit : limit ≠ some 0) :
    parseLiteral? limit (toString n) = some n := by
  have hsigned : signed (decide (n < 0)) n.natAbs = n := by
    unfold signed
    split
    · next hneg =>
        have := of_decide_eq_true hneg
        omega
    · next hneg =>
        have : ¬n < 0 := fun h => hneg (decide_eq_true h)
        omega
  rw [parseLiteral?, plain_of_graphic fun c => graphic_of_mem]
  simp only [Option.bind_eq_bind, Option.bind_some, sign_toString,
    literal?_toDigits (allows_of_fits h hlimit), hsigned, Option.pure_def]

theorem toString_injective : Function.Injective (toString : Int → String) := by
  intro m n h
  have hm : parseLiteral? none (toString m) = some m := parseLiteral?_toString rfl nofun
  have hn : parseLiteral? none (toString n) = some n := parseLiteral?_toString rfl nofun
  exact Option.some.inj (hm.symm.trans (h ▸ hn))

end Dataflow.Numeral
