import Dataflow.Form
import Dataflow.Form.Token

/-!
# Reading symbolic expressions

Tokens are read from left to right with a stack of the lists that are still open. An apostrophe
takes the next form of its list, which has to be there when the list ends. Nothing that is made of
forms depends on how they are read: a program may be given any other reader.
-/

namespace Dataflow.Form

/-- Why a text is no sequence of forms. -/
inductive SyntaxError where
  | fault (f : Fault)
  /-- A list ended with the wrong bracket, or with the text. -/
  | unclosed (b : Bracket) (got : Option Bracket)
  /-- A bracket closes nothing; the text from it on. -/
  | unopened (rest : String)
  | nothingQuoted (position : Nat)
deriving DecidableEq, Repr

/-- What reads the forms of a text. -/
abbrev Reader := String → Except SyntaxError (List Form)

def Bracket.closer : Bracket → String
  | round => ")"
  | square => "]"

/-- The messages are those of the reader's own diagnostics. -/
def SyntaxError.message : SyntaxError → String
  | fault .openString => "'NoneType' object has no attribute 'start'"
  | fault .openEscape => "string index out of range"
  | unclosed b got =>
      "Not enough closing brackets. Expected " ++ Text.quoted b.closer ++
        " to be the last letter in the sexp. Got: " ++
        (match got with
          | some g => Text.quoted g.closer
          | none => "None")
  | unopened rest =>
      "Too many closing brackets. Expected no character left in the sexp. Got: " ++
        Text.quoted rest
  | nothingQuoted p => "No s-exp is found after an apostrophe at position " ++ toString p

/-! ## Open lists -/

/-- An element of an open list. -/
inductive Item where
  | form (f : Form)
  | apostrophe (position : Nat)

/-- A list that is still open, its elements in reverse. -/
structure Frame where
  bracket : Bracket
  items : List Item

/-- The open lists from the innermost out, and in reverse the elements outside all of them. -/
structure Nest where
  frames : List Frame
  top : List Item

/-- The forms of a list whose elements are given in reverse, in front of `done`. -/
def settle : List Item → List Form → Except SyntaxError (List Form)
  | [], done => .ok done
  | .form f :: items, done => settle items (f :: done)
  | .apostrophe _ :: items, f :: done => settle items (quoted f :: done)
  | .apostrophe p :: _, [] => .error (.nothingQuoted p)

/-- The form of a list in brackets. -/
def bracketed : Bracket → List Form → Form
  | .round, fs => list fs
  | .square, fs => brackets fs

namespace Nest

/-- Adds an element to the innermost open list. -/
def add (item : Item) : Nest → Nest
  | ⟨[], top⟩ => ⟨[], item :: top⟩
  | ⟨frame :: outer, top⟩ => ⟨{ frame with items := item :: frame.items } :: outer, top⟩

/-- Closes the innermost open list; `rest` is the text from the bracket on. -/
def close (b : Bracket) (rest : String) : Nest → Except SyntaxError Nest
  | ⟨[], top⟩ => do
      let _ ← settle top []
      .error (.unopened rest)
  | ⟨frame :: outer, top⟩ => do
      let fs ← settle frame.items []
      if frame.bracket = b then return add (.form (bracketed b fs)) ⟨outer, top⟩
      else .error (.unclosed frame.bracket (some b))

/-- Reads one token of a text. -/
def read (source : List Char) (nest : Nest) : Token → Except SyntaxError Nest
  | .opening b => .ok { nest with frames := ⟨b, []⟩ :: nest.frames }
  | .closing b p => nest.close b (String.ofList (source.drop p))
  | .apostrophe p => .ok (nest.add (.apostrophe p))
  | .string s => .ok (nest.add (.form (string s)))
  | .atom s => .ok (nest.add (.form (ofAtom s)))
  | .fault f => .error (.fault f)

/-- The forms at the end of the text. -/
def finish : Nest → Except SyntaxError (List Form)
  | ⟨[], top⟩ => settle top []
  | ⟨frame :: _, _⟩ => do
      let _ ← settle frame.items []
      .error (.unclosed frame.bracket none)

end Nest

/-- The forms of a text. -/
def readAll (s : String) : Except SyntaxError (List Form) := do
  let nest ← (Token.ofText s).foldlM (Nest.read s.toList) ⟨[], []⟩
  nest.finish

end Dataflow.Form
