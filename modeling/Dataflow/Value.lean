import Dataflow.Word32

/-!
# Values of constant propagation

The flat order `undef ≤ const n ≤ nac`: nothing known yet, one known integer, no single integer.
Two different integers meet in `nac`.
-/

namespace Dataflow

/-- What is known of a variable at a point of a method. -/
inductive Value where
  | undef
  | const (n : Int)
  | nac
deriving DecidableEq, Repr

namespace Value

/-- The constant of an integer, wrapped to 32 bits. -/
def ofInt (n : Int) : Value := const (wrap32 n)

/-- The integer of a constant. -/
def int? : Value → Option Int
  | const n => some n
  | _ => none

def isUndef : Value → Bool
  | undef => true
  | _ => false

def isConst : Value → Bool
  | const _ => true
  | _ => false

def isNac : Value → Bool
  | nac => true
  | _ => false

/-- The least value above both. -/
def meet : Value → Value → Value
  | nac, _ => nac
  | _, nac => nac
  | undef, v => v
  | v, undef => v
  | const a, const b => if a = b then const a else nac

/-- The order of information. -/
def le : Value → Value → Bool
  | undef, _ => true
  | _, nac => true
  | const a, const b => a = b
  | _, _ => false

instance : LE Value := ⟨fun a b => a.le b = true⟩

instance : DecidableLE Value := fun a b => inferInstanceAs (Decidable (a.le b = true))

/-- Constants are written after a number sign. -/
def text : Value → String
  | undef => "UNDEF"
  | const n => "#" ++ toString n
  | nac => "NAC"

end Value

end Dataflow
