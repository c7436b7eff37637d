import Dataflow.Command.Arguments
import Dataflow.Command.Fault
import Dataflow.Numeral.Integer
import Dataflow.Selection
import Dataflow.Text.Digit

/-!
# Invocations

What the arguments of the program ask for: `analyze FILE`, `cfg FILE` or `analyses`, each with its
options. An option that is given again takes the last value. One whose value is left out is a fault,
but only where the value is needed; a format that is left out is text. Arguments are texts of
Unicode scalar values: other bytes, which arrive as lone surrogates, are left out.
-/

namespace Dataflow

open Arguments

/-- How an analysis is reported. -/
inductive Format where
  | text
  | json
deriving DecidableEq, Repr

/-- What to do. -/
inductive Command where
  | analyze (file : String) (selection : Except Fault String) (format : Format)
      (output : Except Fault (Option String)) (limit : Except Fault (Option Int))
  | graphs (file : String) (output : Except Fault (Option String))
  | list
deriving Repr

/-- A command and how much of its work is told. -/
structure Invocation where
  verbosity : Nat
  command : Command
deriving Repr

/-- Why there is nothing to do. -/
inductive Stop where
  | usage
  | help
  | version
deriving DecidableEq, Repr

namespace Invocation

/-- The name and version of the program. -/
def version : String := "tacflow 0.1.0"

/-! ## Grammars -/

/-- The options before the command. -/
inductive MainOption where
  | help
  | version
  | verbose
deriving DecidableEq, Repr

/-- The options of commands. -/
inductive Field where
  | help
  | analysis
  | format
  | output
  | limit
deriving DecidableEq, Repr

/-- Whether a character may stand in a negative number. -/
def isDigit (c : Char) : Bool := (Text.digitValue? c).isSome

def mainGrammar : Grammar MainOption where
  options := [("-h", .help), ("--help", .help), ("--version", .version), ("-v", .verbose),
    ("--verbose", .verbose)]
  takesValue _ := false
  operands := .command
  isDigit := isDigit

/-- A command with the given options beside its help. -/
def commandGrammar (operands : Operands) (options : List (String × Field)) : Grammar Field where
  options := [("-h", .help), ("--help", .help)] ++ options
  takesValue o := o ≠ .help
  operands := operands
  isDigit := isDigit

def outputOptions : List (String × Field) := [("--output", .output), ("-o", .output)]

def analyzeGrammar : Grammar Field :=
  commandGrammar .one ([("--analysis", .analysis), ("-a", .analysis), ("--format", .format),
    ("-f", .format)] ++ outputOptions ++ [("--max-iterations", .limit)])

def graphsGrammar : Grammar Field := commandGrammar .one outputOptions

def listGrammar : Grammar Field := commandGrammar .none []

/-! ## Commands -/

/-- The values of a command so far. -/
structure Fields where
  file : Option String
  selection : Except Fault String
  format : Format
  output : Except Fault (Option String)
  limit : Except Fault (Option Int)
  /-- Whether there was an argument that the command does not know. -/
  surplus : Bool

/-- The values that count where none is given. -/
def Fields.initial : Fields := ⟨none, .ok "constprop", .text, .ok none, .ok none, false⟩

def format? : String → Option Format
  | "text" => some .text
  | "json" => some .json
  | _ => none

/-- Takes over what was found. -/
def Fields.add (fs : Fields) : Found Field → Except Stop Fields
  | .option .help _ => .error .help
  | .option .analysis none => .ok { fs with selection := .error .noSelection }
  | .option .analysis (some v) => .ok { fs with selection := .ok v }
  | .option .format none => .ok { fs with format := .text }
  | .option .format (some v) =>
      match format? v with
      | some f => .ok { fs with format := f }
      | none => .error .usage
  | .option .output none => .ok { fs with output := .error .noOutput }
  | .option .output (some v) => .ok { fs with output := .ok (some v) }
  | .option .limit none => .ok { fs with limit := .error .noLimit }
  | .option .limit (some v) =>
      match Numeral.parse? Numeral.digitLimit v with
      | some n => .ok { fs with limit := .ok (some n) }
      | none => .error .usage
  | .operand v => .ok { fs with file := some v }
  | .command _ | .malformed => .error .usage
  | .surplus _ => .ok { fs with surplus := true }

/-- The values that the arguments of a command give. -/
def fields (g : Grammar Field) (args : List String) : Except Stop Fields :=
  match g.parse? args with
  | none => .error .usage
  | some found => found.foldlM Fields.add .initial

/-- A command that needs a file. -/
def withFile (fs : Fields) (make : String → Command) : Except Stop (Command × Bool) :=
  match fs.file with
  | some file => .ok (make file, fs.surplus)
  | none => .error .usage

/-- The command of a word and its arguments, and whether any of them is unknown. -/
def ofWords : List String → Except Stop (Command × Bool)
  | "analyze" :: args => do
      let fs ← fields analyzeGrammar args
      withFile fs fun file => .analyze file fs.selection fs.format fs.output fs.limit
  | "cfg" :: args => do
      let fs ← fields graphsGrammar args
      withFile fs fun file => .graphs file fs.output
  | "analyses" :: args => do
      let fs ← fields listGrammar args
      return (.list, fs.surplus)
  | _ => .error .usage

/-! ## The whole line -/

/-- What was found so far: verbosity, command, and whether anything is unknown. -/
structure Progress where
  verbosity : Nat
  command : Option Command
  surplus : Bool

def Progress.add (p : Progress) : Found MainOption → Except Stop Progress
  | .option .help _ => .error .help
  | .option .version _ => .error .version
  | .option .verbose _ => .ok { p with verbosity := p.verbosity + 1 }
  | .operand _ | .malformed => .error .usage
  | .surplus _ => .ok { p with surplus := true }
  | .command words => do
      let (c, surplus) ← ofWords words
      return { p with command := some c, surplus := p.surplus || surplus }

/-- The invocation of a list of arguments. -/
def parse (args : List String) : Except Stop Invocation :=
  match mainGrammar.parse? args with
  | none => .error .usage
  | some found => do
      let p ← found.foldlM Progress.add ⟨0, none, false⟩
      match p.command, p.surplus with
      | some c, false => return ⟨p.verbosity, c⟩
      | _, _ => .error .usage

end Invocation

end Dataflow
