import Dataflow.Numeral.Shortest
import Dataflow.Text.Quoted

/-!
# Symbolic expressions

The forms that program text is made of, and how they are shown in messages.
-/

namespace Dataflow

open Numeral (Binary64)

/-- A form. -/
inductive Form where
  | list (items : List Form)
  /-- A list in square brackets. -/
  | brackets (items : List Form)
  /-- A form after an apostrophe. -/
  | quoted (form : Form)
  | symbol (name : String)
  | string (text : String)
  | int (n : Int)
  | float (x : Binary64)
deriving Repr

namespace Form

/-- The kind of a form as named in messages. -/
def kind : Form → String
  | list _ => "list"
  | brackets _ => "Brackets"
  | quoted _ => "Quoted"
  | symbol _ => "Symbol"
  | string _ => "str"
  | int _ => "int"
  | float _ => "float"

/-- Numbers from `1e-04` up to `1e+16` are written in positions, others with an exponent of two
digits or more. -/
def floatStyle : Binary64.Style := ⟨-4, 16, 2⟩

mutual
/-- A form as shown in messages. -/
def text : Form → String
  | list fs => "[" ++ ", ".intercalate (textList fs) ++ "]"
  | brackets fs => "Brackets(I=[" ++ ", ".intercalate (textList fs) ++ "])"
  | quoted f => "Quoted(" ++ f.text ++ ")"
  | symbol s => "Symbol(" ++ Text.quoted s ++ ")"
  | string s => Text.quoted s
  | int n => toString n
  | float x => x.text floatStyle

/-- The texts of a list of forms. -/
def textList : List Form → List String
  | [] => []
  | f :: fs => f.text :: textList fs
end

/-- What an atom stands for: an integer, a floating-point number, or a symbol. -/
def ofAtom (s : String) : Form :=
  match Numeral.parse? Numeral.digitLimit s with
  | some n => int n
  | none =>
      match Binary64.parse? s with
      | some x => float x
      | none => symbol s

end Form

end Dataflow
