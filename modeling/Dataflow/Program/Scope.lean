import Dataflow.Expression
import Dataflow.OrderedMap
import Dataflow.Program.Error

/-!
# Expressions in a scope

The declared variables of a method, and the forms of expressions that use them. A symbol is a truth
value before it is a variable.
-/

namespace Dataflow

/-! ## Parts of forms -/

namespace Form

/-- The name of a symbol. -/
def symbolName : Form → Except ProgramError String
  | symbol s => .ok s
  | f => .error (.notSymbol f)

/-- A name may be a symbol or a string. -/
def asName : Form → Except ProgramError String
  | symbol s => .ok s
  | string s => .ok s
  | f => .error (.notName f)

/-- The elements of a list with at least so many. -/
def elements (least : Nat) : Form → Except ProgramError (List Form)
  | list fs => if fs.length < least then .error (.tooShort least fs) else .ok fs
  | f => .error (.notList f)

/-- The symbol at the head of a list, and the rest. -/
def headed : List Form → Except ProgramError (String × List Form)
  | [] => .error .emptyList
  | h :: args => do return (← h.symbolName, args)

end Form

/-! ## Scopes -/

/-- A method and the variables declared in it, by name. -/
structure Scope where
  method : String
  declared : OrderedMap String Var

namespace Scope

/-- Declares the variable of a form `(type name)`. A second declaration must agree with the
first. -/
def declare (sc : Scope) (f : Form) : Except ProgramError (Scope × Var) := do
  match ← f.elements 2 with
  | [t, x] =>
      let name ← x.asName
      let v : Var := ⟨name, .ofName (← t.asName)⟩
      match sc.declared.get? name with
      | some old => if old = v then return (sc, old) else .error (.redeclared sc.method v old f)
      | none => return ({ sc with declared := sc.declared.insert name v }, v)
  | fs => .error (.tooLong 2 fs)

/-- Declares the variables of a list of forms. -/
def declareAll (sc : Scope) : List Form → Except ProgramError (Scope × List Var)
  | [] => .ok (sc, [])
  | f :: fs => do
      let (sc, v) ← sc.declare f
      let (sc, vs) ← sc.declareAll fs
      return (sc, v :: vs)

/-- The variable that a symbol stands for. -/
def lookup (sc : Scope) (f : Form) : Except ProgramError Var := do
  let name ← f.symbolName
  match sc.declared.get? name with
  | some v => return v
  | none => .error (.undeclared sc.method name f)

/-- The literals for truth values. -/
def truth? : String → Option Int
  | "true" => some 1
  | "false" => some 0
  | _ => none

/-! ## Expressions -/

mutual
/-- The expression of a form. -/
def exp (sc : Scope) : Form → Except ProgramError Exp
  | .int n => .ok (.lit n)
  | .symbol s =>
      match truth? s with
      | some n => .ok (.lit n)
      | none => do return .var (← sc.lookup (.symbol s))
  | .list (h :: args) => do
      let tag ← h.symbolName
      match BinOp.ofName? tag with
      | some op =>
          match args with
          | [a, b] => return .bin op (← sc.exp a) (← sc.exp b)
          | _ => .error (.arity 3 3 (h :: args))
      | none =>
          match tag with
          | "neg" =>
              match args with
              | [e] => return .neg (← sc.exp e)
              | _ => .error (.arity 2 2 (h :: args))
          | "cast" =>
              match args with
              | [t, e] =>
                  let type := Ty.ofName (← t.asName)
                  return .cast type (← sc.exp e)
              | _ => .error (.arity 3 3 (h :: args))
          | "invoke" =>
              match args with
              | f :: fs =>
                  let es ← sc.exps fs
                  return .call (← f.asName) es
              | [] => .error (.tooShort 2 [h])
          | _ => .error (.unknownExpression tag (.list (h :: args)))
  | f => .error (.notExpression f)

/-- The expressions of a list of forms. -/
def exps (sc : Scope) : List Form → Except ProgramError (List Exp)
  | [] => .ok []
  | f :: fs => do
      let e ← sc.exp f
      return e :: (← sc.exps fs)
end

end Scope

end Dataflow
