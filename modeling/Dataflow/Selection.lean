import Dataflow.Numeral.Integer
import Dataflow.OrderedMap
import Dataflow.Text.Quoted
import Dataflow.Text.Split

/-!
# Selections

The text that selects an analysis, `id:key=value;key=value`. Blanks around each part do not count,
nor do empty options. A key that is set again keeps its place and takes the last value. A numeral
in another radix can give an integer that has too many decimal digits to be written. Texts have no
lone surrogates, with which a selection could be read but not written.
-/

namespace Dataflow

/-- The value of an option. -/
inductive Setting where
  | bool (b : Bool)
  | int (n : Int)
  | text (s : String)
deriving DecidableEq, Repr

namespace Setting

/-- A truth value in any case, an integer numeral, or the text itself. -/
def ofText (limit : Option Nat) (s : String) : Setting :=
  if s.toLower = "true" then bool true
  else if s.toLower = "false" then bool false
  else match Numeral.parseLiteral? limit s with
    | some n => int n
    | none => text s

/-- The number that a truth value or an integer counts as. -/
def number? : Setting → Option Int
  | bool b => some (if b then 1 else 0)
  | int n => some n
  | text _ => none

/-- Whether two settings mean the same; a truth value means one or zero. -/
def agrees (a b : Setting) : Bool :=
  match a.number?, b.number? with
  | some m, some n => m = n
  | none, none => a = b
  | _, _ => false

/-- A setting as written in a selection. -/
def plain : Setting → String
  | bool true => "True"
  | bool false => "False"
  | int n => toString n
  | text s => s

/-- Whether a setting can be written. -/
def fits (limit : Option Nat) : Setting → Bool
  | int n => Numeral.fits limit n
  | _ => true

/-- A setting as shown in messages. -/
def shown : Setting → String
  | text s => Text.quoted s
  | s => s.plain

end Setting

/-- The id of an analysis and options for it. -/
structure Selection where
  id : String
  options : OrderedMap String Setting

/-- What is wrong with the text of a selection. -/
inductive SelectionError where
  | invalidId (id : String)
  | malformedOption (item id : String)
deriving DecidableEq, Repr

def SelectionError.message : SelectionError → String
  | invalidId id => "Invalid analysis id: " ++ Text.quoted id
  | malformedOption item id =>
      "Malformed option " ++ Text.quoted item ++ " for analysis " ++ Text.quoted id ++
        " (expected key=value)"

namespace Selection

/-! ## Reading -/

def isIdStart (c : Char) : Bool := c.isAlpha || c == '_'

def isIdPart (c : Char) : Bool := c.isAlphanum || c == '_' || c == '.' || c == '-'

/-- An id is a letter or underscore, then letters, digits, underscores, points and hyphens of
ASCII. -/
def isId : List Char → Bool
  | [] => false
  | c :: cs => isIdStart c && cs.all isIdPart

/-- Text without the blanks around it. -/
def bare (cs : List Char) : List Char := Text.trimChars Text.isBlank cs

/-- Key and value of an option. -/
def option? (limit : Option Nat) (item : List Char) : Option (String × Setting) :=
  match Text.cut '=' item with
  | (key, some value) =>
      if bare key = [] then none
      else some (String.ofList (bare key), .ofText limit (String.ofList (bare value)))
  | (_, none) => none

/-- Sets the options of the items from left to right. -/
def setAll (limit : Option Nat) (id : String) (options : OrderedMap String Setting) :
    List (List Char) → Except SelectionError (OrderedMap String Setting)
  | [] => .ok options
  | item :: items =>
      let item := bare item
      if item = [] then setAll limit id options items
      else match option? limit item with
        | some (key, value) => setAll limit id (options.insert key value) items
        | none => .error (.malformedOption (String.ofList item) id)

/-- Reads a selection whose decimal numerals have no more digits than the limit; longer ones are
texts. -/
def read (limit : Option Nat) (s : String) : Except SelectionError Selection :=
  let (head, rest) := Text.cut ':' (bare s.toList)
  let id := String.ofList (bare head)
  if isId (bare head) then do
    return ⟨id, ← setAll limit id .empty (Text.pieces ';' (rest.getD []))⟩
  else .error (.invalidId id)

/-- Reads a selection. -/
def parse (s : String) : Except SelectionError Selection := read Numeral.digitLimit s

/-! ## Writing -/

/-- A selection as it is read. -/
def text (s : Selection) : String :=
  match s.options.toList with
  | [] => s.id
  | options => s.id ++ ":" ++ ";".intercalate (options.map fun p => p.1 ++ "=" ++ p.2.plain)

/-- A selection as shown in messages. -/
def shown (s : Selection) : String :=
  "AnalysisConfig(id=" ++ Text.quoted s.id ++ ", options=\x7b" ++
    ", ".intercalate (s.options.toList.map fun p => Text.quoted p.1 ++ ": " ++ p.2.shown) ++ "\x7d)"

/-- Whether a selection can be written. -/
def fits (s : Selection) : Bool := s.options.toList.all fun p => p.2.fits Numeral.digitLimit

/-- Whether two selections have the same id and options that agree, in any order. -/
def agrees (a b : Selection) : Bool := a.id == b.id && a.options.sameBy Setting.agrees b.options

/-- The analysis that is run if none is selected. -/
def default : Selection := ⟨"constprop", .empty⟩

end Selection

end Dataflow
