import Dataflow.Command.FileTree
import Std.Time.DateTime.Timestamp

/-!
# The program

Reads the file that the arguments name, answers, tells its events on standard error and puts the
text where the arguments want it.
-/

namespace Dataflow

namespace Console

def usage : String :=
  "usage: tacflow [-h] [--version] [-v] analyze FILE [-a ANALYSIS] [-f \x7btext,json\x7d]\n" ++
    "                                         [-o OUTPUT] [--max-iterations N]\n" ++
    "       tacflow [-h] [--version] [-v] cfg FILE [-o OUTPUT]\n" ++
    "       tacflow [-h] [--version] [-v] analyses"

/-- A number below a hundred in two digits. -/
def twoDigits (n : Nat) : String := if n < 10 then "0" ++ toString n else toString n

/-- The time of day of a number of seconds since midnight. -/
def clock (seconds : Nat) : String :=
  twoDigits (seconds / 3600 % 24) ++ ":" ++ twoDigits (seconds / 60 % 60) ++ ":" ++
    twoDigits (seconds % 60)

/-- Milliseconds as seconds with three places. -/
def seconds (milliseconds : Nat) : String :=
  let rest := toString (milliseconds % 1000)
  toString (milliseconds / 1000) ++ "." ++
    String.ofList (List.replicate (3 - rest.length) '0') ++ rest

/-- The home of a user by the lines of an account table. -/
def homeIn (accounts user : String) : Option Path :=
  (Text.pieces '\n' accounts.toList).findSome? fun line =>
    match (Text.pieces ':' line).map String.ofList with
    | [name, _, _, _, _, home, _] =>
        if name = user then some (Path.follow [] (Path.names home)) else none
    | _ => none

/-- The path that a text stands for here. -/
def locate (s : String) : IO (Except Fault Path) := do
  let own := (← IO.getEnv "HOME").getD "/"
  let accounts := (← (IO.FS.readFile "/etc/passwd").toBaseIO).toOption.getD ""
  let here := (← IO.currentDir).toString
  let home (user : String) : Option Path :=
    if user = "" then some (Path.follow [] (Path.names own)) else homeIn accounts user
  return Path.resolve home (Path.follow [] (Path.names here)) s

/-- What is at a path. -/
def find (path : Path) : IO (Except Fault Source) := do
  match ← (IO.FS.realPath path.text).toBaseIO with
  | .error _ =>
      if path.isTooLong || path.any FileTree.isNameTooLong then return .error .nameTooLong
      else return .ok (.missing path.text)
  | .ok p =>
      if ← p.isDir then return .ok (.directory p.toString)
      else return .ok (.bytes p.toString (← IO.FS.readBinFile p).toList)

/-- What a command finds where a text says. -/
def source (s : String) : IO (Except Fault Source) := do
  match ← locate s with
  | .error f => return .error f
  | .ok path => find path

/-- Writes a file and makes the directories above it. -/
def write (path : Path) (text : String) : IO Unit := do
  IO.FS.createDirAll (Path.text path.dropLast)
  IO.FS.writeFile path.text text

/-- Puts a text where a command wants it. -/
def put (output? : Except Fault (Option String)) (text : String) : IO (Except Fault Unit) := do
  match output? with
  | .error f => return .error f
  | .ok none => return .ok (← IO.print text)
  | .ok (some out) =>
      match ← locate out with
      | .error f => return .error f
      | .ok path => return .ok (← write path text)

/-- Tells a fault and gives the exit code for it. -/
def tell (f : Fault) : IO UInt32 := do
  IO.eprintln f.message
  return 1

/-- Carries an invocation out. -/
def carryOut (i : Invocation) : IO UInt32 := do
  let source ← source (i.command.file?.getD "")
  let started ← IO.monoMsNow
  let answer := i.command.answer Form.readAll .initial source
  let elapsed := seconds ((← IO.monoMsNow) - started)
  let now ← Std.Time.Timestamp.now
  let time := clock (now.toSecondsSinceUnixEpoch.val % 86400).toNat
  IO.eprint (Event.log i.verbosity time elapsed answer.events)
  let done ← match answer.text with
    | some text => put i.command.output? text
    | none => pure (.ok ())
  match answer.exit, done with
  | .error f, _ | _, .error f => tell f
  | .ok code, .ok _ => return code.toUInt32

/-- Answers arguments with an exit code. -/
def answer (args : List String) : IO UInt32 := do
  match Invocation.parse args with
  | .ok i => carryOut i
  | .error .version => do
      IO.println Invocation.version
      return 0
  | .error .help => do
      IO.println usage
      return 0
  | .error .usage => do
      IO.eprintln usage
      return 2

end Console

end Dataflow

def main (args : List String) : IO UInt32 := Dataflow.Console.answer args
