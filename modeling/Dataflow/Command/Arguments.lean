import Dataflow.Text.Split

/-!
# Command-line conventions

Long options may be shortened to a unique beginning and take a value after an equals sign or as the
next argument; short options may be joined, and take a value joined to them, after an equals sign or
as the next argument. Two hyphens end the options; attached to an option they stand for no value.
What looks like a negative number is a value.
-/

namespace Dataflow.Arguments

/-- What arguments other than options may be there. -/
inductive Operands where
  | none
  /-- One argument. -/
  | one
  /-- A word, after which everything belongs to it. -/
  | command
deriving DecidableEq, Repr

/-- The options of a command, by the text that names them. -/
structure Grammar (O : Type) where
  options : List (String × O)
  takesValue : O → Bool
  operands : Operands
  /-- The digits that may make a negative number. -/
  isDigit : Char → Bool

/-- The role of an argument before it is known what takes values. -/
inductive Role (O : Type) where
  | option (name : List Char) (o : O) (attached : Option (List Char))
  | unknownOption
  | operand
  | stop

/-- What parsing finds, in order. -/
inductive Found (O : Type) where
  /-- An option, and its value unless it takes none or two hyphens stand for it. -/
  | option (o : O) (value : Option String)
  | operand (s : String)
  | command (words : List String)
  | surplus (s : String)
  /-- An option without its value, or with one that it does not take. Nothing counts after it. -/
  | malformed
deriving Repr

variable {O : Type}

namespace Grammar

/-! ## Roles -/

/-- The option with exactly this name. -/
def named? (g : Grammar O) (cs : List Char) : Option O :=
  (g.options.find? fun p => p.1.toList == cs).map Prod.snd

/-- The options whose names begin with the name of a long argument, or that a short argument
begins with. -/
def candidates (g : Grammar O) (cs : List Char) : List (Role O) :=
  match cs with
  | '-' :: '-' :: _ =>
      let (name, value) := Text.cut '=' cs
      g.options.filterMap fun p =>
        if name.isPrefixOf p.1.toList then some (.option p.1.toList p.2 value) else none
  | _ =>
      g.options.filterMap fun p =>
        if p.1.toList = cs.take 2 then some (.option p.1.toList p.2 (some (cs.drop 2)))
        else if cs.isPrefixOf p.1.toList then some (.option p.1.toList p.2 none)
        else none

/-- A text without one line feed at its end. -/
def dropLineEnd (cs : List Char) : List Char :=
  if cs.getLast? = some '\n' then cs.dropLast else cs

/-- Whether an argument looks like a negative number. -/
def negative (g : Grammar O) (cs : List Char) : Bool :=
  match cs with
  | '-' :: r =>
      let whole := dropLineEnd r
      let fraction := whole.dropWhile g.isDigit
      (whole ≠ [] && whole.all g.isDigit) ||
        (match fraction with
          | '.' :: ds => ds ≠ [] && ds.all g.isDigit
          | _ => false)
  | _ => false

/-- The role of an argument; none if it could be several options. -/
def role? (g : Grammar O) (s : String) : Option (Role O) :=
  let cs := s.toList
  if cs.head? ≠ some '-' then some .operand
  else match g.named? cs with
    | some o => some (.option cs o none)
    | none =>
        if cs.length = 1 then some .operand
        else
          let (name, value) := Text.cut '=' cs
          match value, g.named? name with
          | some v, some o => some (.option name o (some v))
          | _, _ =>
              match g.candidates cs with
              | [r] => some r
              | _ :: _ :: _ => none
              | [] =>
                  if g.negative cs || cs.contains ' ' then some .operand else some .unknownOption

/-- The roles of all arguments; after two hyphens all are operands. -/
def roles? (g : Grammar O) : List String → Option (List (String × Role O))
  | [] => some []
  | s :: ss =>
      if s = "--" then some ((s, .stop) :: ss.map (·, .operand))
      else do
        let r ← g.role? s
        return (s, r) :: (← g.roles? ss)

/-! ## Options -/

/-- What an option stands for with nothing attached to it, and the option that takes the next
argument as its value. -/
def alone (g : Grammar O) (o : O) : List (Found O) × Option O :=
  if g.takesValue o then ([], some o) else ([.option o none], none)

/-- An option with the value that is attached to it. -/
def valued (o : O) (value : List Char) : Found O :=
  .option o (if value = ['-', '-'] then none else some (String.ofList value))

/-- The options that are joined behind `o`, which takes no value: each character is one, and what is
left behind the first that takes a value is its value. -/
def joined? (g : Grammar O) (o : O) : List Char → Option (List (Found O) × Option O)
  | [] => none
  | c :: rest => do
      let next ← g.named? ['-', c]
      let (fs, waiting) ←
        if rest = [] then some (g.alone next)
        else if g.takesValue next then some ([valued next rest], none)
        else g.joined? next rest
      return (.option o none :: fs, waiting)

/-- What an option stands for with what is attached to it, and the option that takes the next
argument as its value. Only short options can be joined. -/
def settle? (g : Grammar O) (name : List Char) (o : O) :
    Option (List Char) → Option (List (Found O) × Option O)
  | none => some (g.alone o)
  | some value =>
      if g.takesValue o then some ([valued o value], none)
      else if name.length = 2 then g.joined? o value
      else none

/-! ## Arguments -/

/-- Reads arguments in their roles while `left` operands may still come. -/
def read (g : Grammar O) (left : Operands) : List (String × Role O) → List (Found O)
  | [] => []
  | (s, .operand) :: rest =>
      match left, rest with
      | .command, rest => [.command (s :: rest.map Prod.fst)]
      | .one, (_, .stop) :: rest => .operand s :: g.read .none rest
      | .one, rest => .operand s :: g.read .none rest
      | .none, rest => .surplus s :: g.read .none rest
  | (s, .stop) :: rest =>
      match left, rest with
      | .command, (_, .operand) :: _ => [.command (s :: rest.map Prod.fst)]
      | .one, (a, .operand) :: rest => .operand a :: g.read .none rest
      | left, rest => .surplus s :: g.read left rest
  | (s, .unknownOption) :: rest => .surplus s :: g.read left rest
  | (_, .option name o attached) :: rest =>
      match g.settle? name o attached, rest with
      | some (fs, none), rest => fs ++ g.read left rest
      | some (fs, some o), (v, .operand) :: rest => fs ++ .option o (some v) :: g.read left rest
      | some (_, some _), _ => [.malformed]
      | none, _ => [.malformed]

/-- What the arguments of a command stand for, in order; none if one could be several options. -/
def parse? (g : Grammar O) (args : List String) : Option (List (Found O)) :=
  (g.roles? args).map (g.read g.operands)

end Grammar

end Dataflow.Arguments
