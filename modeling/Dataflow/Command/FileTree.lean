import Dataflow.Command
import Dataflow.OrderedMap

/-!
# Files and directories

A tree of files by absolute path, and the program run on such a tree.
-/

namespace Dataflow

/-- The names on the way from the root. -/
abbrev Path := List String

namespace Path

/-- A path as written. -/
def text (p : Path) : String := "/" ++ "/".intercalate p

/-- Follows names from a path; a point stays, two points go up. -/
def follow (p : Path) : List String → Path
  | [] => p
  | "" :: ns => follow p ns
  | "." :: ns => follow p ns
  | ".." :: ns => follow p.dropLast ns
  | n :: ns => follow (p ++ [n]) ns

/-- The names between the slashes of a text. -/
def names (s : String) : List String := (Text.pieces '/' s.toList).map String.ofList

/-- Whether a name contains the null character. -/
def hasNull (n : String) : Bool := n.toList.contains '\x00'

/-- Where the path of a text starts, and the names to follow from there. A tilde in front of the
first name stands for the home of the user that it names, of the current one if it names nobody. -/
def split (home : String → Option Path) (current : Path) (s : String) :
    Except Fault (Path × List String) :=
  if s.toList.head? = some '/' then .ok ([], names s)
  else match (names s).filter fun n => n ∉ ["", "."] with
    | [] => .ok (current, [])
    | n :: ns =>
        match n.toList with
        | '~' :: user =>
            if hasNull n then .error .nullInPath
            else match home (String.ofList user) with
              | some start => .ok (start, ns)
              | none => .error .noHome
        | _ => .ok (current, n :: ns)

/-- The absolute path of a text. -/
def resolve (home : String → Option Path) (current : Path) (s : String) : Except Fault Path := do
  let (start, ns) ← split home current s
  if ns.any hasNull then .error .nullInPath else return follow start ns

/-- Whether a path as a whole has more bytes than can be looked up. -/
def isTooLong (p : Path) : Bool := 4096 ≤ p.text.utf8ByteSize

end Path

/-- What is at a path. -/
inductive Entry where
  | directory
  | file (content : List UInt8)
deriving DecidableEq, Repr

/-- Entries by path. The root is always a directory. -/
abbrev FileTree := OrderedMap Path Entry

namespace FileTree

/-- The entry at a path. -/
def entry? (t : FileTree) (p : Path) : Option Entry :=
  if p = [] then some .directory else t.get? p

/-- Whether a name has more bytes than a directory can hold. -/
def isNameTooLong (n : String) : Bool := 255 < n.utf8ByteSize

/-! ## Reading -/

/-- What is found on the way down from `p`. Names are looked up in directories only, and a name that
is too long is a fault there. -/
def descend (t : FileTree) (p : Path) : List String → Except Fault (Option Entry)
  | [] => .ok (t.entry? p)
  | n :: ns =>
      if t.entry? p = some .directory then
        if isNameTooLong n then .error .nameTooLong else t.descend (p ++ [n]) ns
      else .ok none

/-- What a command finds at a path. -/
def source (t : FileTree) (p : Path) : Except Fault Source := do
  if p.isTooLong then .error .nameTooLong
  else match ← t.descend [] p with
    | none => return .missing p.text
    | some .directory => return .directory p.text
    | some (.file content) => return .bytes p.text content

/-! ## Writing -/

/-- Makes the directory of names given from the innermost out, and those above it. -/
def makeDirectory (t : FileTree) : List String → FileTree × Option Fault
  | [] => (t, none)
  | n :: above =>
      let p := (n :: above).reverse
      match t.entry? p with
      | some .directory => (t, none)
      | some (.file _) => (t, some .fileExists)
      | none =>
          match makeDirectory t above with
          | (t', none) =>
              if isNameTooLong n then (t', some .nameTooLong)
              else (OrderedMap.insert t' p .directory, none)
          | (t', some .fileExists) => (t', some .notDirectory)
          | (t', some f) => (t', some f)

/-- Writes a file and makes the directories above it, which stay if the file cannot be opened. -/
def write (t : FileTree) (p : Path) (content : List UInt8) : FileTree × Option Fault :=
  if Path.isTooLong p.dropLast then (t, some .nameTooLong)
  else match t.makeDirectory p.dropLast.reverse with
    | (t', some f) => (t', some f)
    | (t', none) =>
        if p.isTooLong || p.getLast?.any isNameTooLong then (t', some .nameTooLong)
        else match t'.entry? p with
          | some .directory => (t', some .isDirectory)
          | _ => (OrderedMap.insert t' p (.file content), none)

end FileTree

/-! ## The program -/

/-- Where the program runs. -/
structure Place where
  files : FileTree
  /-- The home of a user; that of the current one by the empty name. -/
  home : String → Option Path
  current : Path

/-- What a run of the program ends with. -/
inductive Finish where
  | stopped (reason : Stop)
  | answered (verbosity : Nat) (answer : Answer) (output : String) (files : FileTree)

namespace Place

/-- The absolute path of a text. -/
def resolve (place : Place) (s : String) : Except Fault Path :=
  Path.resolve place.home place.current s

/-- What a command finds where a text says. -/
def source (place : Place) (s : String) : Except Fault Source := do
  place.files.source (← place.resolve s)

/-- The files after a text is written where a command wants it, and the text if that is standard
output. -/
def put (place : Place) (output? : Except Fault (Option String)) (text : String) :
    FileTree × Except Fault String :=
  match output? with
  | .error f => (place.files, .error f)
  | .ok none => (place.files, .ok text)
  | .ok (some out) =>
      match place.resolve out with
      | .error f => (place.files, .error f)
      | .ok p =>
          match place.files.write p text.toUTF8.toList with
          | (files, none) => (files, .ok "")
          | (files, some f) => (files, .error f)

/-- Runs the program with arguments. Nothing is written before the answer is complete. -/
def run (place : Place) (registry : Registry) (args : List String)
    (read : Form.Reader := Form.readAll) : Finish :=
  match Invocation.parse args with
  | .error reason => .stopped reason
  | .ok i =>
      let answer := i.command.answer read registry (place.source (i.command.file?.getD ""))
      match answer.text.map (place.put i.command.output?) with
      | none => .answered i.verbosity answer "" place.files
      | some (files, .ok text) => .answered i.verbosity answer text files
      | some (files, .error f) => .answered i.verbosity (.broken answer.events f) "" files

end Place

end Dataflow
