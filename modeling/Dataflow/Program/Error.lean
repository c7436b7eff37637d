import Dataflow.Form.Reader
import Dataflow.Variable

/-!
# Errors of program text

Every way in which a text or a form fails to be a program, with its message and the form to blame.
-/

namespace Dataflow

/-- Why a text or a form is no program. -/
inductive ProgramError where
  | malformed (e : Form.SyntaxError)
  | formCount (n : Nat)
  | notSymbol (f : Form)
  | notList (f : Form)
  | tooShort (least : Nat) (items : List Form)
  | tooLong (most : Nat) (items : List Form)
  | emptyList
  | notName (f : Form)
  | redeclared (method : String) (new old : Var) (f : Form)
  | undeclared (method name : String) (f : Form)
  | unknownExpression (tag : String) (f : Form)
  | notExpression (f : Form)
  | notComparison (f : Form)
  | unknownStatement (tag : String) (f : Form)
  | notMethod (tag : String) (f : Form)
  | unknownSection (tag : String) (f : Form)
  | duplicateSection (method tag : String) (f : Form)
  | duplicateLabel (method label : String)
  | duplicateMethods (names : List String)
  /-- The text itself could not be had. -/
  | unreadable (reason : String)

namespace ProgramError

/-- The list is too short or too long for its arity. -/
def arity (least most : Nat) (items : List Form) : ProgramError :=
  if items.length < least then tooShort least items else tooLong most items

/-- The description of an error. -/
def message : ProgramError → String
  | malformed e => "S-expression syntax error: " ++ e.message
  | formCount n => "Expected a single top-level form, got " ++ toString n
  | notSymbol f => "Expected symbol, got " ++ f.kind
  | notList f => "Expected list, got " ++ f.kind
  | tooShort least items =>
      "List too short: expected at least " ++ toString least ++ " elements, got " ++
        toString items.length
  | tooLong most items =>
      "List too long: expected at most " ++ toString most ++ " elements, got " ++
        toString items.length
  | emptyList => "Unexpected empty list"
  | notName f => "Expected name, got " ++ f.kind
  | redeclared m new old _ =>
      m ++ ": variable " ++ Text.quoted new.name ++ " redeclared as " ++ new.type.name ++
        " (was " ++ old.type.name ++ ")"
  | undeclared m name _ => m ++ ": undeclared variable " ++ Text.quoted name
  | unknownExpression tag _ => "Unknown expression form: (" ++ tag ++ " ...)"
  | notExpression _ => "Expected expression"
  | notComparison _ => "if condition must be a comparison"
  | unknownStatement tag _ => "Unknown statement form: (" ++ tag ++ " ...)"
  | notMethod tag _ => "Expected (method ...), got (" ++ tag ++ " ...)"
  | unknownSection tag _ => "Unknown method section: (" ++ tag ++ " ...)"
  | duplicateSection m tag _ => m ++ ": duplicate (" ++ tag ++ " ...) section"
  | duplicateLabel m label => m ++ ": duplicate label " ++ Text.quoted label
  | duplicateMethods names => "Duplicate method name(s): " ++ ", ".intercalate names
  | unreadable reason => "Cannot read IR file: " ++ reason

/-- The form to blame. -/
def form? : ProgramError → Option Form
  | notSymbol f | notList f | notName f | redeclared _ _ _ f | undeclared _ _ f
  | unknownExpression _ f | notExpression f | notComparison f | unknownStatement _ f
  | notMethod _ f | unknownSection _ f | duplicateSection _ _ f => some f
  | tooShort _ items | tooLong _ items => some (.list items)
  | emptyList => some (.list [])
  | malformed _ | formCount _ | duplicateLabel .. | duplicateMethods _ | unreadable _ => none

/-- A message with the form to blame after it and the file in front. -/
def describe (file : String) (message : String) (form : Option Form) : String :=
  let located := match form with
    | some f => message ++ ": " ++ f.text
    | none => message
  if file = "" then located else file ++ ": " ++ located

/-- The full text of an error in a file; no file if the name is empty. -/
def text (e : ProgramError) (file : String) : String := describe file e.message e.form?

end ProgramError

end Dataflow
