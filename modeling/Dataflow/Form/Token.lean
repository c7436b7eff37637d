import Dataflow.Text.Blank

/-!
# Tokens of symbolic expressions

Text is cut into tokens one character at a time. Blanks and comments make no token. Text that ends
inside a string or after a backslash ends in a fault.
-/

namespace Dataflow.Form

/-- The two kinds of brackets. -/
inductive Bracket where
  | round
  | square
deriving DecidableEq, Repr

/-- What can be wrong with the end of a text. -/
inductive Fault where
  | openString
  | openEscape
deriving DecidableEq, Repr

/-- A token; brackets that close and apostrophes know their position. -/
inductive Token where
  | opening (b : Bracket)
  | closing (b : Bracket) (position : Nat)
  | apostrophe (position : Nat)
  | string (text : String)
  | atom (text : String)
  | fault (f : Fault)
deriving DecidableEq, Repr

namespace Token

/-- Where a scan stands; the text of an unfinished token is kept in reverse. -/
inductive State where
  | between
  | inComment
  | inString (soFar : List Char)
  | inStringEscape (soFar : List Char)
  | inAtom (soFar : List Char)
  | inAtomEscape (soFar : List Char)
deriving DecidableEq, Repr

/-- The escapes of strings; other characters keep their backslash. -/
def stringEscape? : Char → Option Char
  | '\\' => some '\\'
  | '"' => some '"'
  | 'b' => some '\x08'
  | 'f' => some '\x0c'
  | 'n' => some '\n'
  | 'r' => some '\r'
  | 't' => some '\t'
  | _ => none

/-- The characters that a backslash makes part of an atom; others keep their backslash. -/
def escapable : List Char :=
  ['\\', '\'', '\x60', '"', '(', ')', '[', ']', ' ', ',', '?', ';', '#']

/-- A finished text. -/
def finished (soFar : List Char) : String := String.ofList soFar.reverse

/-- The token that starts and ends with a character outside all others, and the state after it. -/
def first (position : Nat) (c : Char) : List Token × State :=
  if Text.isAsciiBlank c then ([], .between)
  else match c with
    | '(' => ([.opening .round], .between)
    | '[' => ([.opening .square], .between)
    | ')' => ([.closing .round position], .between)
    | ']' => ([.closing .square position], .between)
    | '\'' => ([.apostrophe position], .between)
    | '"' => ([], .inString [])
    | ';' => ([], .inComment)
    | '\\' => ([], .inAtomEscape [])
    | c => ([], .inAtom [c])

/-- Whether a character ends an atom. -/
def endsAtom (c : Char) : Bool := Text.isAsciiBlank c || c ∈ ['(', ')', '[', ']', '"', ';']

/-- Reads one character. -/
def next (position : Nat) (c : Char) : State → List Token × State
  | .between => first position c
  | .inComment => ([], if c = '\n' then .between else .inComment)
  | .inString s =>
      if c = '"' then ([.string (finished s)], .between)
      else if c = '\\' then ([], .inStringEscape s)
      else ([], .inString (c :: s))
  | .inStringEscape s =>
      match stringEscape? c with
      | some c' => ([], .inString (c' :: s))
      | none => ([], .inString (c :: '\\' :: s))
  | .inAtom s =>
      if endsAtom c then
        let (ts, state) := first position c
        (.atom (finished s) :: ts, state)
      else if c = '\\' then ([], .inAtomEscape s)
      else ([], .inAtom (c :: s))
  | .inAtomEscape s => ([], .inAtom (if c ∈ escapable then c :: s else c :: '\\' :: s))

/-- The tokens that the end of the text completes. -/
def last : State → List Token
  | .between | .inComment => []
  | .inString _ => [.fault .openString]
  | .inStringEscape _ | .inAtomEscape _ => [.fault .openEscape]
  | .inAtom s => [.atom (finished s)]

/-- The tokens of a text from a position on. -/
def scan (position : Nat) (state : State) : List Char → List Token
  | [] => last state
  | c :: cs =>
      let (ts, state') := next position c state
      ts ++ scan (position + 1) state' cs

/-- The tokens of a text. -/
def ofText (s : String) : List Token := scan 0 .between s.toList

end Token

end Dataflow.Form
