import Dataflow.Numeral.Integer

/-!
# Decimal fractions as 64-bit binary numbers

A decimal fraction is read exactly and rounded once to the nearest binary number with 53 bits, a
tie to the even one.
-/

namespace Dataflow.Numeral

/-- A 64-bit binary floating-point number. -/
inductive Binary64 where
  | nan
  | infinity (negative : Bool)
  /-- The number `± mantissa * 2 ^ exponent`. -/
  | finite (negative : Bool) (mantissa : Nat) (exponent : Int)
deriving DecidableEq, Repr

namespace Binary64

/-- The least exponent of a number. -/
def minExponent : Int := -1074

/-- The greatest exponent of a number. -/
def maxExponent : Int := 971

/-- Mantissas have at most 53 bits. -/
def mantissaBound : Nat := 9007199254740992

/-- Half of the division goes to the even quotient. -/
def divEven (a b : Nat) : Nat :=
  let q := a / b
  let r := a % b
  if 2 * r < b then q else if b < 2 * r then q + 1 else if q % 2 = 0 then q else q + 1

/-- Numerator and denominator of `a / b / 2 ^ q`. -/
def scaled (a b : Nat) (q : Int) : Nat × Nat :=
  if 0 ≤ q then (a, b * Nat.pow 2 q.toNat) else (a * Nat.pow 2 (-q).toNat, b)

/-- The exponent at which the positive fraction `a / b` has 53 bits, or the least one. -/
def exponentOf (a b : Nat) : Int :=
  let q := max minExponent ((a.log2 : Int) - b.log2 - 53)
  let (x, y) := scaled a b q
  if x / y < mantissaBound then q else q + 1

/-- The number nearest to the positive fraction `a / b`. -/
def ofFraction (negative : Bool) (a b : Nat) : Binary64 :=
  let q := exponentOf a b
  let (x, y) := scaled a b q
  let m := divEven x y
  let (m, q) := if m = mantissaBound then (mantissaBound / 2, q + 1) else (m, q)
  if maxExponent < q then infinity negative else finite negative m q

/-- The number nearest to `digits * 10 ^ exponent`. -/
def ofDecimal (negative : Bool) (digits : Nat) (exponent : Int) : Binary64 :=
  let magnitude := exponent + (Nat.toDigits 10 digits).length
  if digits = 0 ∨ magnitude < -330 then finite negative 0 minExponent
  else if 310 < magnitude then infinity negative
  else if 0 ≤ exponent then ofFraction negative (digits * Nat.pow 10 exponent.toNat) 1
  else ofFraction negative digits (Nat.pow 10 (-exponent).toNat)

/-! ## Reading -/

/-- Drops single underscores between digits; `previous` comes before the text. -/
def ungroupDigits (previous : Char) : List Char → Option (List Char)
  | [] => some []
  | ['_'] => none
  | '_' :: c :: r =>
      if previous.isDigit && c.isDigit then (ungroupDigits c r).map (c :: ·) else none
  | c :: r => (ungroupDigits c r).map (c :: ·)

/-- The exponent after the fraction. -/
def exponent? : List Char → Option Int
  | [] => some 0
  | c :: r =>
      if c = 'e' ∨ c = 'E' then
        let (negative, ds) := sign r
        if ds ≠ [] ∧ ds.all Char.isDigit then some (signed negative (value 10 ds)) else none
      else none

/-- The part after the integer digits: the fraction digits and what follows them. -/
def fraction : List Char → List Char × List Char
  | '.' :: r => r.span Char.isDigit
  | cs => ([], cs)

/-- Reads a number without a sign. -/
def unsigned? (negative : Bool) (cs : List Char) : Option Binary64 :=
  let name := String.ofList (cs.map Char.toLower)
  if name = "inf" ∨ name = "infinity" then some (infinity negative)
  else if name = "nan" then some nan
  else
    let (whole, rest) := cs.span Char.isDigit
    let (part, rest) := fraction rest
    if whole ++ part = [] then none
    else (exponent? rest).map fun e =>
      ofDecimal negative (value 10 (whole ++ part)) (e - part.length)

/-- Reads a decimal fraction, an infinity or the number that is none. -/
def parse? (s : String) : Option Binary64 := do
  let cs ← ungroupDigits ' ' (← plain s)
  let (negative, cs) := sign cs
  unsigned? negative cs

end Binary64

end Dataflow.Numeral
