import Dataflow.Expression

/-!
# Statements

What a statement does is its `Instr`. The source of an invocation is normally a call and that of a
load a read of memory, but any expression will do. Two statements that do the same are still two
statements, so each carries a mark that tells it apart.
-/

namespace Dataflow

/-- What a statement does. -/
inductive Instr where
  | assign (target : Var) (source : Exp)
  | invoke (target : Option Var) (source : Exp)
  | load (target : Var) (source : Exp)
  | branch (condition : Exp) (label : String)
  | goto (label : String)
  | label (name : String)
  | ret (value : Option Exp)
  | nop
  /-- A statement of which nothing is known. -/
  | bare
  /-- A definition of which neither the target nor the source is known. -/
  | bareDefinition
deriving DecidableEq, Repr

namespace Instr

/-- The variable that is defined. -/
def target? : Instr → Option Var
  | assign x _ => some x
  | invoke x _ => x
  | load x _ => some x
  | _ => none

/-- Whether the instruction may define a variable. -/
def isDefinition : Instr → Bool
  | assign .. | invoke .. | load .. | bareDefinition => true
  | _ => false

/-- The source of a definition. -/
def source? : Instr → Option Exp
  | assign _ e => some e
  | invoke _ e => some e
  | load _ e => some e
  | _ => none

/-- The expressions that are read; none is known of an invocation that is no call and of a load that
reads no memory. -/
def uses? : Instr → Option (List Exp)
  | assign _ e => some [e]
  | invoke _ (.call _ args) => some args
  | load _ (.field v _) => some [.var v]
  | invoke .. | load .. => none
  | branch c _ => some [c]
  | ret (some e) => some [e]
  | _ => some []

/-- The name of a label. -/
def labelName? : Instr → Option String
  | label s => some s
  | _ => none

/-- An instruction as written in listings; a bare one shows its index. -/
def text (index : Int) : Instr → String
  | assign x e => x.name ++ " = " ++ e.text ++ ";"
  | invoke (some x) e => x.name ++ " = " ++ e.text ++ ";"
  | invoke none e => e.text ++ ";"
  | load x e => x.name ++ " = " ++ e.text ++ ";"
  | branch c l => "if (" ++ c.text ++ ") goto " ++ l ++ ";"
  | goto l => "goto " ++ l ++ ";"
  | label s => s ++ ":"
  | ret none => "return;"
  | ret (some e) => "return " ++ e.text ++ ";"
  | nop => "nop;"
  | bare => "Stmt(index=" ++ toString index ++ ")"
  | bareDefinition => "DefinitionStmt(index=" ++ toString index ++ ")"

end Instr

/-- A statement: an instruction and the mark that tells it from equal ones. -/
structure Stmt where
  mark : Nat
  instr : Instr
deriving DecidableEq, Repr

end Dataflow
