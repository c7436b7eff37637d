import Dataflow.Graph
import Dataflow.Method
import Dataflow.Program.Scope

/-!
# Programs

The forms of statements, methods and programs. A program is `(program method ...)` or one method; a
method is `(method name section ...)` with the sections `params`, `vars` and `body`, each at most
once and in any order.
-/

namespace Dataflow

/-! ## Statements -/

namespace Scope

/-- An assignment of a call is an invocation. -/
def assignment (x : Var) : Exp → Instr
  | .call f args => .invoke (some x) (.call f args)
  | e => .assign x e

/-- The instruction with a tag; `f` is the whole form and `items` are its elements. -/
def tagged (sc : Scope) (f : Form) (items : List Form) (tag : String) (args : List Form) :
    Except ProgramError Instr :=
  match tag, args with
  | "assign", [x, e] => do
      let v ← sc.lookup x
      return assignment v (← sc.exp e)
  | "assign", _ => .error (.arity 3 3 items)
  | "invoke", g :: fs => do
      let es ← sc.exps fs
      return .invoke none (.call (← g.asName) es)
  | "invoke", [] => .error (.tooShort 2 items)
  | "load", [x, y, g] => do
      let v ← sc.lookup x
      let w ← sc.lookup y
      return .load v (.field w (← g.asName))
  | "load", _ => .error (.arity 4 4 items)
  | "if", [c, l] => do
      let e ← sc.exp c
      if e.isComparison then return .branch e (← l.asName) else .error (.notComparison c)
  | "if", _ => .error (.arity 3 3 items)
  | "goto", [l] => do return .goto (← l.asName)
  | "goto", _ => .error (.arity 2 2 items)
  | "label", [l] => do return .label (← l.asName)
  | "label", _ => .error (.arity 2 2 items)
  | "return", [] => .ok (.ret none)
  | "return", [e] => do return .ret (some (← sc.exp e))
  | "return", _ => .error (.arity 1 2 items)
  | "nop", [] => .ok .nop
  | "nop", _ => .error (.arity 1 1 items)
  | _, _ => .error (.unknownStatement tag f)

/-- The instruction of a form. -/
def instr (sc : Scope) (f : Form) : Except ProgramError Instr := do
  let items ← f.elements 1
  let (tag, args) ← Form.headed items
  sc.tagged f items tag args

/-- The statements of a list of forms, marked from `i` on. -/
def body (sc : Scope) (i : Nat) : List Form → Except ProgramError (List Stmt)
  | [] => .ok []
  | f :: fs => do
      let c ← sc.instr f
      return ⟨i, c⟩ :: (← sc.body (i + 1) fs)

end Scope

/-! ## Methods -/

/-- The sections of a method by tag. -/
abbrev Sections := OrderedMap String (List Form)

namespace Sections

/-- The tags that sections may have. -/
def tags : List String := ["params", "vars", "body"]

/-- Adds the section of a form. -/
def add (method : String) (s : Sections) (f : Form) : Except ProgramError Sections := do
  let (tag, args) ← Form.headed (← f.elements 1)
  if tag ∉ tags then .error (.unknownSection tag f)
  else if s.contains tag then .error (.duplicateSection method tag f)
  else return OrderedMap.insert s tag args

/-- The forms of a section. -/
def forms (s : Sections) (tag : String) : List Form := (s.get? tag).getD []

end Sections

/-- The first label that is defined again; `seen` are the labels before. -/
def duplicateLabel? (seen : List String) : List Stmt → Option String
  | [] => none
  | s :: ss =>
      match s.instr.labelName? with
      | some l => if l ∈ seen then some l else duplicateLabel? (l :: seen) ss
      | none => duplicateLabel? seen ss

/-- The method of a form. -/
def Method.ofForm (f : Form) : Except ProgramError Method := do
  let (tag, args) ← Form.headed (← f.elements 2)
  if tag ≠ "method" then .error (.notMethod tag f)
  else match args with
    | [] => .error .emptyList
    | n :: rest =>
        let name ← n.asName
        let sections ← rest.foldlM (Sections.add name) (OrderedMap.empty : Sections)
        let (sc, params) ← Scope.declareAll ⟨name, .empty⟩ (sections.forms "params")
        let (sc, _) ← sc.declareAll (sections.forms "vars")
        let body ← sc.body 0 (sections.forms "body")
        match duplicateLabel? [] body with
        | some l => .error (.duplicateLabel name l)
        | none => return ⟨name, params, sc.declared.toList.map Prod.snd, body⟩

/-! ## Programs -/

/-- A text with exactly one form. -/
def Form.ofText (s : String) (read : Reader := readAll) : Except ProgramError Form :=
  match read s with
  | .error e => .error (.malformed e)
  | .ok [f] => .ok f
  | .ok fs => .error (.formCount fs.length)

/-- The method of a text. -/
def Method.ofText (s : String) (read : Form.Reader := Form.readAll) : Except ProgramError Method := do
  Method.ofForm (← Form.ofText s read)

namespace Program

/-- The methods of a form. -/
def methods (f : Form) : Except ProgramError (List Method) := do
  let (tag, args) ← Form.headed (← f.elements 1)
  if tag = "program" then args.mapM Method.ofForm
  else return [← Method.ofForm f]

/-- The names that occur more than once, sorted. -/
def repeated (names : List String) : List String :=
  ((distinct names).filter fun n => 1 < names.count n).mergeSort fun a b => !(b < a : Bool)

/-- The methods of a program, no two of one name. -/
def ofForm (f : Form) : Except ProgramError (List Method) := do
  let ms ← methods f
  match repeated (ms.map (·.name)) with
  | [] => return ms
  | names => .error (.duplicateMethods names)

/-- The methods of a program text. -/
def ofText (s : String) (read : Form.Reader := Form.readAll) : Except ProgramError (List Method) := do
  ofForm (← Form.ofText s read)

end Program

end Dataflow
