import Dataflow.Command.Invocation
import Dataflow.Program
import Dataflow.Run
import Dataflow.Text.Utf8

/-!
# Commands

What a command does with the text of its file. It answers with an exit code, the events on the way
and, only if everything succeeded, one finished text. The code is 2 if there is nothing to solve
and 1 if solving failed. A fault takes the place of the code.

To exceed the limit on the decimal digits of an integer that is written is a fault. The limit on
recursion is left out: forms and expressions nest to any depth. So are lone surrogates: all texts
consist of Unicode scalar values, also those of arguments and options, and every text can be written.
-/

namespace Dataflow

/-- What is found at the path of a file; paths are absolute. -/
inductive Source where
  | missing (path : String)
  | directory (path : String)
  | bytes (path : String) (content : List UInt8)

/-- The outcome of a command. -/
structure Answer where
  exit : Except Fault Nat
  events : List Event
  text : Option String
deriving Repr

namespace Answer

/-- An answer without a text. -/
def refuse (exit : Nat) (events : List Event) (message : String) : Answer :=
  ⟨.ok exit, events ++ [.failed message], none⟩

/-- The answer that a fault ends. -/
def broken (events : List Event) (f : Fault) : Answer := ⟨.error f, events, none⟩

/-! ## Reading -/

/-- The reason why a directory is no file. -/
def directoryReason (path : String) : String := "[Errno 21] Is a directory: " ++ Text.quoted path

/-- The methods in the bytes of a file. -/
def methodsOf (read : Form.Reader) (content : List UInt8) : Except ProgramError (List Method) :=
  match Text.decode content with
  | .error e => .error (.unreadable e.message)
  | .ok cs => Program.ofText (String.ofList (Text.unifyLines cs)) read

/-- The methods of a source, or the answer that ends the command. -/
def load (read : Form.Reader) : Except Fault Source → Except Answer (List Event × List Method)
  | .error f => .error (broken [] f)
  | .ok (.missing path) => .error (refuse 2 [] ("IR file not found: " ++ path))
  | .ok (.directory path) =>
      .error (refuse 2 [.reading path]
        ("Parse error: " ++ (ProgramError.unreadable (directoryReason path)).text path))
  | .ok (.bytes path content) =>
      match methodsOf read content with
      | .error e => .error (refuse 2 [.reading path] ("Parse error: " ++ e.text path))
      | .ok ms => .ok ([.reading path, .parsed (ms.map (·.name))], ms)

/-! ## Analysing -/

/-- The exit code of a failure: solving failed, or there was nothing to solve. -/
def exitCode : RunError → Nat
  | .solve _ => 1
  | _ => 2

/-- The message of a failure on a method. -/
def failure (m : Method) : RunError → String
  | .solve e => "Analysis of " ++ m.name ++ " failed: " ++ e.message
  | e => e.message

/-- What ends the work on a list of methods. -/
inductive Ending where
  | refused (exit : Nat) (message : String)
  | broken (f : Fault)

/-- The report on a method. A limit that was left out is missed before the first visit. A report as
text is written at once, so that its selection must fit. -/
def report (registry : Registry) (format : Format) (s : Selection)
    (limit : Except Fault (Option Int)) (m : Method) : List Event × Except Ending Report :=
  let (events, result) := runMethod registry m s (limit.toOption.getD (some 0))
  let ending : Except Ending Report :=
    match limit, result with
    | .error f, .error (.solve _) | .error f, .ok _ => .error (.broken f)
    | _, .error e => .error (.refused (exitCode e) (failure m e))
    | .ok _, .ok r =>
        if format = .text ∧ ¬s.fits then .error (.broken .tooManyDigits) else .ok r
  (events, ending)

/-- The reports on methods up to the first failure. -/
def reports (registry : Registry) (format : Format) (s : Selection)
    (limit : Except Fault (Option Int)) : List Method → List Event × Except Ending (List Report)
  | [] => ([], .ok [])
  | m :: ms =>
      match report registry format s limit m with
      | (events, .error e) => (events, .error e)
      | (events, .ok r) =>
          let (more, rest) := reports registry format s limit ms
          (events ++ more, rest.map (r :: ·))

/-- Reports in a format. -/
def render : Format → List Report → String
  | .text, rs => String.join (rs.map Report.text)
  | .json, rs => (Json.object [("methods", .array (rs.map Report.json))]).text ++ "\n"

/-- Analyses every method of a source. -/
def ofAnalysis (read : Form.Reader) (registry : Registry) (selection : Except Fault String)
    (format : Format) (limit : Except Fault (Option Int)) (source : Except Fault Source) : Answer :=
  match selection.map Selection.parse with
  | .error f => broken [] f
  | .ok (.error e) => refuse 2 [] e.message
  | .ok (.ok s) =>
      match load read source with
      | .error answer => answer
      | .ok (before, ms) =>
          match reports registry format s limit ms with
          | (events, .error (.refused exit message)) => refuse exit (before ++ events) message
          | (events, .error (.broken f)) => broken (before ++ events) f
          | (events, .ok rs) =>
              if rs.isEmpty || s.fits then ⟨.ok 0, before ++ events, some (render format rs)⟩
              else broken (before ++ events) .tooManyDigits

/-! ## Graphs -/

/-- The descriptions of the graphs of methods, each on its own lines. -/
def dots : List Method → Except MissingLabel String
  | [] => .ok ""
  | m :: ms => do
      let g ← m.graph
      let rest ← dots ms
      return g.dot m.labelling m.name ++ "\n" ++ rest

/-- Describes the graph of every method of a source. -/
def ofGraphs (read : Form.Reader) (source : Except Fault Source) : Answer :=
  match load read source with
  | .error answer => answer
  | .ok (before, ms) =>
      match dots ms with
      | .error e => refuse 2 before e.message
      | .ok text => ⟨.ok 0, before, some text⟩

/-- The ids that can be selected, one on a line. -/
def ofListing (registry : Registry) : Answer :=
  ⟨.ok 0, [], some (String.join (registry.available.map (· ++ "\n")))⟩

end Answer

/-! ## All commands -/

namespace Command

/-- The file that a command reads. -/
def file? : Command → Option String
  | .analyze file .. => some file
  | .graphs file _ => some file
  | .list => none

/-- Where a command puts its text; standard output if there is no place or it is a hyphen. -/
def output? : Command → Except Fault (Option String)
  | .analyze _ _ _ output _ | .graphs _ output => output.map (Option.filter (· ≠ "-"))
  | .list => .ok none

/-- The answer of a command, given what is at its path. -/
def answer (read : Form.Reader) (registry : Registry) (source : Except Fault Source) : Command → Answer
  | .analyze _ selection format _ limit => .ofAnalysis read registry selection format limit source
  | .graphs _ _ => .ofGraphs read source
  | .list => .ofListing registry

end Command

end Dataflow
