/-!
# JSON text

Documents written over several lines with an indent of two. Characters outside printable ASCII are
escaped, beyond the basic plane as a pair of surrogates.
-/

namespace Dataflow

/-- A JSON document without fractions; members keep their order. -/
inductive Json where
  | null
  | bool (b : Bool)
  | int (n : Int)
  | string (s : String)
  | array (items : List Json)
  | object (members : List (String × Json))

namespace Json

/-! ## Strings -/

/-- A 16-bit unit as an escape. -/
def unit (n : Nat) : List Char :=
  let ds := Nat.toDigits 16 n
  '\\' :: 'u' :: (List.replicate (4 - ds.length) '0' ++ ds)

/-- A character in a string. -/
def escape (c : Char) : List Char :=
  let n := c.toNat
  if c = '"' ∨ c = '\\' then ['\\', c]
  else if c = '\n' then ['\\', 'n']
  else if c = '\r' then ['\\', 'r']
  else if c = '\t' then ['\\', 't']
  else if n = 8 then ['\\', 'b']
  else if n = 12 then ['\\', 'f']
  else if 32 ≤ n ∧ n ≤ 126 then [c]
  else if n < 0x10000 then unit n
  else unit (0xd800 + (n - 0x10000) / 0x400) ++ unit (0xdc00 + (n - 0x10000) % 0x400)

def quote (s : String) : String := String.ofList ('"' :: s.toList.flatMap escape ++ ['"'])

/-! ## Documents -/

/-- A new line at a depth. -/
def newline (depth : Nat) : String := String.ofList ('\n' :: List.replicate (2 * depth) ' ')

/-- Parts between brackets, each on its own line. -/
def enclosed (depth : Nat) (opening closing : String) : List String → String
  | [] => opening ++ closing
  | parts =>
      opening ++ newline (depth + 1) ++ ("," ++ newline (depth + 1)).intercalate parts ++
        newline depth ++ closing

mutual
/-- A document at a depth. -/
def write (depth : Nat) : Json → String
  | null => "null"
  | bool true => "true"
  | bool false => "false"
  | int n => toString n
  | string s => quote s
  | array items => enclosed depth "[" "]" (writeItems (depth + 1) items)
  | object members => enclosed depth "\x7b" "\x7d" (writeMembers (depth + 1) members)

def writeItems (depth : Nat) : List Json → List String
  | [] => []
  | j :: js => j.write depth :: writeItems depth js

def writeMembers (depth : Nat) : List (String × Json) → List String
  | [] => []
  | (k, j) :: ms => (quote k ++ ": " ++ j.write depth) :: writeMembers depth ms
end

/-- A whole document. -/
def text (j : Json) : String := j.write 0

end Json

end Dataflow
