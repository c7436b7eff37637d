import Dataflow.Operator
import Dataflow.Text.Quoted
import Dataflow.Variable

/-!
# Expressions

The right-hand sides, conditions and results of a method, and how they are written. No parentheses
are written around operands.
-/

namespace Dataflow

/-- An expression. -/
inductive Exp where
  | lit (n : Int)
  | var (v : Var)
  | bin (op : BinOp) (left right : Exp)
  /-- A binary expression outside every operator family; it has no known result. -/
  | unclassed (op : BinOp) (left right : Exp)
  | neg (e : Exp)
  | cast (type : Ty) (e : Exp)
  | call (method : String) (args : List Exp)
  /-- A read of memory, which the analysis does not model. -/
  | field (base : Var) (name : String)
deriving Repr

namespace Exp

/-! ## Equality -/

mutual
/-- Decides equality of two expressions. -/
def decEq : (a b : Exp) → Decidable (a = b)
  | .lit m, .lit n => if h : m = n then isTrue (by rw [h]) else isFalse (by simp [h])
  | .var v, .var w => if h : v = w then isTrue (by rw [h]) else isFalse (by simp [h])
  | .bin o a b, .bin o' a' b' =>
      if ho : o = o' then
        match decEq a a', decEq b b' with
        | isTrue ha, isTrue hb => isTrue (by rw [ho, ha, hb])
        | isFalse ha, _ => isFalse (by simp [ha])
        | _, isFalse hb => isFalse (by simp [hb])
      else isFalse (by simp [ho])
  | .unclassed o a b, .unclassed o' a' b' =>
      if ho : o = o' then
        match decEq a a', decEq b b' with
        | isTrue ha, isTrue hb => isTrue (by rw [ho, ha, hb])
        | isFalse ha, _ => isFalse (by simp [ha])
        | _, isFalse hb => isFalse (by simp [hb])
      else isFalse (by simp [ho])
  | .neg a, .neg b =>
      match decEq a b with
      | isTrue h => isTrue (by rw [h])
      | isFalse h => isFalse (by simp [h])
  | .cast t a, .cast t' b =>
      if ht : t = t' then
        match decEq a b with
        | isTrue h => isTrue (by rw [ht, h])
        | isFalse h => isFalse (by simp [h])
      else isFalse (by simp [ht])
  | .call f as, .call g bs =>
      if hf : f = g then
        match decEqList as bs with
        | isTrue h => isTrue (by rw [hf, h])
        | isFalse h => isFalse (by simp [h])
      else isFalse (by simp [hf])
  | .field v f, .field w g =>
      if hv : v = w then
        if hf : f = g then isTrue (by rw [hv, hf]) else isFalse (by simp [hf])
      else isFalse (by simp [hv])
  | .lit _, .var _ | .lit _, .bin .. | .lit _, .unclassed .. | .lit _, .neg _
  | .lit _, .cast .. | .lit _, .call .. | .lit _, .field .. => isFalse nofun
  | .var _, .lit _ | .var _, .bin .. | .var _, .unclassed .. | .var _, .neg _
  | .var _, .cast .. | .var _, .call .. | .var _, .field .. => isFalse nofun
  | .bin .., .lit _ | .bin .., .var _ | .bin .., .unclassed .. | .bin .., .neg _
  | .bin .., .cast .. | .bin .., .call .. | .bin .., .field .. => isFalse nofun
  | .unclassed .., .lit _ | .unclassed .., .var _ | .unclassed .., .bin ..
  | .unclassed .., .neg _ | .unclassed .., .cast .. | .unclassed .., .call ..
  | .unclassed .., .field .. => isFalse nofun
  | .neg _, .lit _ | .neg _, .var _ | .neg _, .bin .. | .neg _, .unclassed ..
  | .neg _, .cast .. | .neg _, .call .. | .neg _, .field .. => isFalse nofun
  | .cast .., .lit _ | .cast .., .var _ | .cast .., .bin .. | .cast .., .unclassed ..
  | .cast .., .neg _ | .cast .., .call .. | .cast .., .field .. => isFalse nofun
  | .call .., .lit _ | .call .., .var _ | .call .., .bin .. | .call .., .unclassed ..
  | .call .., .neg _ | .call .., .cast .. | .call .., .field .. => isFalse nofun
  | .field .., .lit _ | .field .., .var _ | .field .., .bin .. | .field .., .unclassed ..
  | .field .., .neg _ | .field .., .cast .. | .field .., .call .. => isFalse nofun

/-- Decides equality of two lists of expressions. -/
def decEqList : (as bs : List Exp) → Decidable (as = bs)
  | [], [] => isTrue rfl
  | a :: as, b :: bs =>
      match decEq a b, decEqList as bs with
      | isTrue ha, isTrue hb => isTrue (by rw [ha, hb])
      | isFalse ha, _ => isFalse (by simp [ha])
      | _, isFalse hb => isFalse (by simp [hb])
  | [], _ :: _ | _ :: _, [] => isFalse nofun
end

instance : DecidableEq Exp := decEq

/-! ## Text -/

mutual
/-- An expression as written in listings. -/
def text : Exp → String
  | .lit n => toString n
  | .var v => v.name
  | .bin op a b => a.text ++ " " ++ op.symbol ++ " " ++ b.text
  | .unclassed op a b => a.text ++ " " ++ op.symbol ++ " " ++ b.text
  | .neg e => "-" ++ e.text
  | .cast t e => "(" ++ t.name ++ ") " ++ e.text
  | .call f args => f ++ "(" ++ ", ".intercalate (textList args) ++ ")"
  | .field v f => v.name ++ "." ++ f

/-- The texts of a list of expressions. -/
def textList : List Exp → List String
  | [] => []
  | e :: es => e.text :: textList es
end

/-! ## Operators by symbol -/

/-- A symbol that names no operator. -/
structure UnknownOperator where
  symbol : String
deriving DecidableEq, Repr

def UnknownOperator.message (e : UnknownOperator) : String :=
  "not a binary operator: " ++ Text.quoted e.symbol

/-- The binary expression of a symbol. -/
def ofSymbol (symbol : String) (left right : Exp) : Except UnknownOperator Exp :=
  match BinOp.ofSymbol? symbol with
  | some op => .ok (.bin op left right)
  | none => .error ⟨symbol⟩

/-- Whether the expression is a comparison. -/
def isComparison : Exp → Bool
  | .bin op _ _ => op.family == .comparison
  | _ => false

end Exp

end Dataflow
