import Dataflow.Propagation

/-!
# Environments in memory

An environment that is changed in place is an object that refers to a map, and the maps lie in memory. An
operation writes the map of an object, or makes a new map for it. Nothing but the operations keeps `undef` out of
the maps, and two objects from sharing a map.
-/

namespace Dataflow

/-! ## Maps -/

/-- The values of variables, some of which may be `undef`. -/
abbrev ValueMap := OrderedMap Var Value

namespace ValueMap

/-- The value of a variable. -/
def get (m : ValueMap) (x : Var) : Value := (OrderedMap.get? m x).getD Value.undef

/-- Binds a variable, or drops it if the value is `undef`. It counts as changed if a dropped variable was bound, and
if a bound one was not bound to the same value. -/
def update (m : ValueMap) (x : Var) (v : Value) : ValueMap × Bool :=
  if v = .undef then (OrderedMap.erase m x, (OrderedMap.get? m x).isSome)
  else (OrderedMap.insert m x v, OrderedMap.get? m x ≠ some v)

/-- Updates with the pairs from left to right. -/
def ofList (l : List (Var × Value)) : ValueMap := l.foldl (fun m p => (update m p.1 p.2).1) .empty

/-- Whether both maps bind the same variables to the same values. -/
def same (m₁ m₂ : ValueMap) : Bool := OrderedMap.sameBy (fun v w => v = w) m₁ m₂

/-- Meets the values of `source` into `target`. -/
def merge (source target : ValueMap) : ValueMap :=
  source.toList.foldl (fun t p => (update t p.1 ((get t p.1).meet p.2)).1) target

/-- The map after a node. -/
def flow (n : Node) (m : ValueMap) : ValueMap :=
  match n.instr.target? with
  | some x =>
      if x.tracked then
        (update m x ((n.instr.source?.map (·.eval (.ofList m.toList))).getD .nac)).1
      else m
  | none => m

end ValueMap

/-! ## Memory -/

/-- The maps made so far, and for every object the position of its map. -/
structure Memory where
  maps : List ValueMap
  objects : List Nat

namespace Memory

/-- No objects. -/
def empty : Memory := ⟨[], []⟩

/-- The map of an object. -/
def map? (s : Memory) (o : Nat) : Option ValueMap := s.objects[o]?.bind (s.maps[·]?)

/-- The value of a variable in an object. -/
def get? (s : Memory) (o : Nat) (x : Var) : Option Value := (s.map? o).map (ValueMap.get · x)

/-- Makes an object with a new map. -/
def make (s : Memory) (m : ValueMap) : Memory := ⟨s.maps ++ [m], s.objects ++ [s.maps.length]⟩

/-- Writes the map of an object. -/
def write (s : Memory) (o : Nat) (m : ValueMap) : Memory :=
  match s.objects[o]? with
  | some i => ⟨s.maps.set i m, s.objects⟩
  | none => s

/-- Makes a new map and gives it to an object. -/
def renew (s : Memory) (o : Nat) (m : ValueMap) : Memory :=
  ⟨s.maps ++ [m], s.objects.set o s.maps.length⟩

/-! ## Operations -/

/-- An operation on objects, which are named by their numbers. -/
inductive Op where
  | make (pairs : List (Var × Value))
  | copy (o : Nat)
  | update (o : Nat) (x : Var) (v : Value)
  | remove (o : Nat) (x : Var)
  /-- Gives an object the contents of another one. -/
  | assign (o source : Nat)
  /-- Meets the first object into the second. -/
  | merge (source target : Nat)
  /-- Gives an object the contents after a node, from those of another object before it. -/
  | transfer (n : Node) (before after : Nat)

namespace Op

/-- The objects that must be there. -/
def objects : Op → List Nat
  | make _ => []
  | copy o => [o]
  | update o _ _ => [o]
  | remove o _ => [o]
  | assign o source => [o, source]
  | merge source target => [source, target]
  | transfer _ before after => [before, after]

/-- The object that is written. -/
def written? : Op → Option Nat
  | make _ => none
  | copy _ => none
  | update o _ _ => some o
  | remove o _ => some o
  | assign o _ => some o
  | merge _ target => some target
  | transfer _ _ after => some after

/-- The object of which the operation tells whether it changed. -/
def reported? : Op → Option Nat
  | update o _ _ => some o
  | assign o _ => some o
  | transfer _ _ after => some after
  | _ => none

end Op

/-- What an operation answers. -/
inductive Answer where
  | made (o : Nat)
  | changed (b : Bool)
  | removed (v : Option Value)
  | done
  /-- An object was not there, and nothing was done. -/
  | unknown
deriving DecidableEq, Repr

/-- Gives an object that has the map `old` a copy of `new`; a map that agrees stays. -/
def replace (s : Memory) (o : Nat) (old new : ValueMap) : Memory × Answer :=
  if old.same new then (s, .changed false) else (s.renew o new, .changed true)

/-- Carries out an operation. -/
def step (s : Memory) : Op → Memory × Answer
  | .make pairs => (s.make (.ofList pairs), .made s.objects.length)
  | .copy o =>
      match s.map? o with
      | some m => (s.make m, .made s.objects.length)
      | none => (s, .unknown)
  | .update o x v =>
      match s.map? o with
      | some m => (s.write o (m.update x v).1, .changed (m.update x v).2)
      | none => (s, .unknown)
  | .remove o x =>
      match s.map? o with
      | some m => (s.write o (m.erase x), .removed (OrderedMap.get? m x))
      | none => (s, .unknown)
  | .assign o source =>
      match s.map? o, s.map? source with
      | some old, some new => s.replace o old new
      | _, _ => (s, .unknown)
  | .merge source target =>
      match s.map? source, s.map? target with
      | some m, some m' => (s.write target (m.merge m'), .done)
      | _, _ => (s, .unknown)
  | .transfer n before after =>
      match s.map? before, s.map? after with
      | some m, some old => s.replace after old (m.flow n)
      | _, _ => (s, .unknown)

/-- The memory after the operations, from no objects. -/
def run (ops : List Op) : Memory := ops.foldl (fun s op => (s.step op).1) empty

end Memory

end Dataflow
