import Dataflow.Value

/-!
# Binary operators

Seventeen operators in four families, each with a symbol and a word, and their meaning on 32-bit
integers.
-/

namespace Dataflow

/-- The families that operators fall into. -/
inductive Family where
  | arithmetic
  | comparison
  | shift
  | bitwise
deriving DecidableEq, Repr

/-- The binary operators. -/
inductive BinOp where
  | add | sub | mul | div | rem
  | eq | ne | lt | le | gt | ge
  | shl | shr | ushr
  | or | and | xor
deriving DecidableEq, Repr

namespace BinOp

/-- Every operator. -/
def all : List BinOp :=
  [add, sub, mul, div, rem, eq, ne, lt, le, gt, ge, shl, shr, ushr, or, and, xor]

def family : BinOp → Family
  | add | sub | mul | div | rem => .arithmetic
  | eq | ne | lt | le | gt | ge => .comparison
  | shl | shr | ushr => .shift
  | or | and | xor => .bitwise

def symbol : BinOp → String
  | add => "+" | sub => "-" | mul => "*" | div => "/" | rem => "%"
  | eq => "==" | ne => "!=" | lt => "<" | le => "<=" | gt => ">" | ge => ">="
  | shl => "<<" | shr => ">>" | ushr => ">>>"
  | or => "|" | and => "&" | xor => "^"

def word : BinOp → String
  | add => "add" | sub => "sub" | mul => "mul" | div => "div" | rem => "rem"
  | eq => "eq" | ne => "ne" | lt => "lt" | le => "le" | gt => "gt" | ge => "ge"
  | shl => "shl" | shr => "shr" | ushr => "ushr"
  | or => "or" | and => "and" | xor => "xor"

/-- The operator with a symbol. -/
def ofSymbol? (s : String) : Option BinOp := all.find? fun op => op.symbol == s

/-- The operator with a symbol or a word. -/
def ofName? (s : String) : Option BinOp := all.find? fun op => op.symbol == s || op.word == s

/-- A shift moves by the low five bits of its right operand. -/
def distance (n : Int) : Nat := (n % 32).toNat

/-- One for true, zero for false. -/
def truth (p : Bool) : Int := if p then 1 else 0

/-- The exact result before it is wrapped; `none` for a division or remainder by zero. -/
def result? (a b : Int) : BinOp → Option Int
  | add => some (a + b)
  | sub => some (a - b)
  | mul => some (a * b)
  | div => if b = 0 then none else some (a.tdiv b)
  | rem => if b = 0 then none else some (a.tmod b)
  | eq => some (truth (a = b))
  | ne => some (truth (a ≠ b))
  | lt => some (truth (a < b))
  | le => some (truth (a ≤ b))
  | gt => some (truth (b < a))
  | ge => some (truth (b ≤ a))
  | shl => some (a * Nat.pow 2 (distance b))
  | shr => some (a >>> distance b)
  | ushr => some (bits32 a >>> distance b : Nat)
  | or => some (bits32 a ||| bits32 b : Nat)
  | and => some (bits32 a &&& bits32 b : Nat)
  | xor => some (bits32 a ^^^ bits32 b : Nat)

/-- The operator on two constants. Operands and result are wrapped; dividing by zero gives no
value. -/
def fold (op : BinOp) (a b : Int) : Value :=
  match op.result? (wrap32 a) (wrap32 b) with
  | some n => .ofInt n
  | none => .undef

end BinOp

end Dataflow
