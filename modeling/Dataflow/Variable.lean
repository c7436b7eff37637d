/-!
# Types and variables

A type is primitive or is named; a variable is identified by its name and its type together.
-/

namespace Dataflow

/-- The primitive types. -/
inductive Prim where
  | byte | short | int | char | boolean | long | float | double
deriving DecidableEq, Repr

namespace Prim

/-- Every primitive type. -/
def all : List Prim := [byte, short, int, char, boolean, long, float, double]

def name : Prim → String
  | byte => "byte" | short => "short" | int => "int" | char => "char"
  | boolean => "boolean" | long => "long" | float => "float" | double => "double"

/-- The types whose values fit a 32-bit integer. -/
def intLike : Prim → Bool
  | byte | short | int | char | boolean => true
  | long | float | double => false

end Prim

/-- A primitive type, or any other type by its name. -/
inductive Ty where
  | prim (p : Prim)
  | ref (name : String)
deriving DecidableEq, Repr

namespace Ty

/-- The type that a name stands for. -/
def ofName (s : String) : Ty :=
  match Prim.all.find? fun p => p.name == s with
  | some p => prim p
  | none => ref s

def name : Ty → String
  | prim p => p.name
  | ref s => s

def intLike : Ty → Bool
  | prim p => p.intLike
  | ref _ => false

end Ty

/-- A parameter or local variable of a method. -/
structure Var where
  name : String
  type : Ty
deriving DecidableEq, Repr

/-- Whether constant propagation follows the variable. -/
def Var.tracked (v : Var) : Bool := v.type.intLike

end Dataflow
