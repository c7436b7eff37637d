import Dataflow.Text.Blank
import Dataflow.Text.Digit

/-!
# Integer numerals

Digits of any script, single underscores between them, a sign in front and blanks around. `parse?`
reads decimal numerals only, `parseLiteral?` also those with a radix in front. Both take the most
digits that a decimal numeral may have, if there is a limit; `fits` is the same limit for writing.
-/

namespace Dataflow.Numeral

/-! ## Plain characters -/

/-- The ASCII character that a character of a numeral counts as. -/
def plain? (c : Char) : Option Char :=
  if c.toNat < 127 then some c
  else if Text.isWideBlank c then some ' '
  else (Text.digitValue? c).map fun d => Char.ofNat ('0'.toNat + d)

/-- A text in plain characters, without the blanks around it. -/
def plain (s : String) : Option (List Char) :=
  (s.toList.mapM plain?).map (Text.trimChars Text.isAsciiBlank)

/-! ## Digits -/

/-- The value of a digit in radixes up to sixteen. -/
def digit (c : Char) : Nat :=
  if c.isDigit then c.toNat - '0'.toNat
  else if 'a' ≤ c ∧ c ≤ 'f' then c.toNat - 'a'.toNat + 10
  else if 'A' ≤ c ∧ c ≤ 'F' then c.toNat - 'A'.toNat + 10
  else 16

/-- The number that digits write in a radix. -/
def value (radix : Nat) (cs : List Char) : Nat := cs.foldl (fun n c => n * radix + digit c) 0

/-- Drops single underscores between characters that `p` accepts; `none` if there is no character
or anything else. -/
def ungroup (p : Char → Bool) : List Char → Option (List Char)
  | [] => none
  | [c] => if p c then some [c] else none
  | c :: '_' :: r => if p c then (ungroup p r).map (c :: ·) else none
  | c :: r => if p c then (ungroup p r).map (c :: ·) else none

/-- The digits of a numeral in a radix. -/
def digits? (radix : Nat) (cs : List Char) : Option (List Char) := ungroup (digit · < radix) cs

/-- The sign in front, true for minus, and what follows. -/
def sign : List Char → Bool × List Char
  | '-' :: r => (true, r)
  | '+' :: r => (false, r)
  | cs => (false, cs)

def signed (negative : Bool) (n : Nat) : Int := if negative then -n else n

/-- Whether there may be `n` digits. -/
def allows (limit : Option Nat) (n : Nat) : Bool :=
  match limit with
  | some most => n ≤ most
  | none => true

/-- The number that a decimal numeral without sign writes. -/
def decimal? (limit : Option Nat) (cs : List Char) : Option Nat := do
  let ds ← digits? 10 cs
  if allows limit ds.length then some (value 10 ds) else none

/-- Reads a decimal numeral. -/
def parse? (limit : Option Nat) (s : String) : Option Int := do
  let (negative, cs) := sign (← plain s)
  return signed negative (← decimal? limit cs)

/-- Whether an integer has no more decimal digits than the limit, which is not zero. -/
def fits (limit : Option Nat) (n : Int) : Bool :=
  match limit with
  | some most => n.natAbs < Nat.pow 10 most
  | none => true

/-- The most digits that decimal numerals have in all texts of the program. -/
def digitLimit : Option Nat := some 4300

/-! ## Radix in front -/

/-- The radix that a letter after the first zero stands for. -/
def radix? (c : Char) : Option Nat :=
  match c.toLower with
  | 'x' => some 16
  | 'o' => some 8
  | 'b' => some 2
  | _ => none

/-- One underscore may follow the radix. -/
def afterRadix : List Char → List Char
  | '_' :: r => r
  | cs => cs

/-- The number that a numeral without sign writes. A decimal one that starts with a zero is zero. -/
def literal? (limit : Option Nat) (cs : List Char) : Option Nat :=
  match cs with
  | '0' :: c :: r =>
      match radix? c with
      | some radix => (digits? radix (afterRadix r)).map (value radix)
      | none => (decimal? limit cs).filter (· == 0)
  | _ => decimal? limit cs

/-- Reads a decimal numeral, or a numeral of any length after `0x`, `0o` or `0b`. -/
def parseLiteral? (limit : Option Nat) (s : String) : Option Int := do
  let (negative, cs) := sign (← plain s)
  return signed negative (← literal? limit cs)

end Dataflow.Numeral
