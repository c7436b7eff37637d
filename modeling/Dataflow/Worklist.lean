import Dataflow.Problem

/-!
# The worklist algorithm

Nodes wait in a queue. A visit meets the facts after the predecessors of a node into the fact
before it and applies the node; if the fact after it changed, its successors join the queue.
`run` takes as many visits as it is allowed, `visitBound` says how many always suffice.

A visit changes the fact before its node and then the fact after it, each in place. Both are values
here, because the facts of different slots are never one object, at the start or later: a visit
changes these two facts and no others.
-/

namespace Dataflow

/-- Why no solution was found. -/
inductive SolveError where
  /-- There are no starting facts for a backward problem, which has this name. -/
  | backwardStart (name : String)
  | backwardRun
  /-- The queue was not empty after this many visits. -/
  | nonConvergence (limit : Int)
  /-- A fact that a visit needs is missing. -/
  | missingFact
deriving DecidableEq, Repr

/-- A limit is written out whatever its number of digits. -/
def SolveError.message : SolveError → String
  | backwardStart name => "WorkListSolver does not support backward analyses (" ++ name ++ ")"
  | backwardRun => "Backward worklist solving is not implemented"
  | nonConvergence m => "Dataflow analysis did not converge in " ++ toString m ++ " iterations"
  | missingFact => "missing fact"

namespace Worklist

variable {N F : Type} [DecidableEq N]

/-! ## One visit -/

/-- What a visit found: the facts around the node after it, and whether its successors wait. -/
structure Visit (N F : Type) where
  node : N
  before : F
  after : F
  changed : Bool

/-- The facts so far and the nodes that wait. -/
structure State (N F : Type) [DecidableEq N] where
  solution : Solution N F
  queue : List N

/-- What a step does. -/
inductive Step (N F : Type) [DecidableEq N] where
  /-- Nothing waits. -/
  | done
  /-- A fact is missing; the facts as the visit leaves them. -/
  | stuck (solution : Solution N F)
  | next (visit : Visit N F) (state : State N F)

/-- Meets the facts of the nodes into `f`, up to the first node without one; whether all had one. -/
def meetAll (p : Problem N F) (facts : OrderedMap N F) (f : F) : List N → F × Bool
  | [] => (f, true)
  | n :: ns =>
      match facts.get? n with
      | some f' => meetAll p facts (p.meet f' f) ns
      | none => (f, false)

/-- Visits the first node that waits. -/
def step (p : Problem N F) (g : Graph N) (s : State N F) : Step N F :=
  match s.queue with
  | [] => .done
  | n :: rest =>
      match s.solution.ins.get? n with
      | none => .stuck s.solution
      | some f =>
          let (before, complete) := meetAll p s.solution.outs f (g.preds n)
          let solution := s.solution.setIn n before
          match complete, solution.outs.get? n with
          | true, some old =>
              let (after, changed) := p.transfer n before old
              .next ⟨n, before, after, changed⟩
                ⟨solution.setOut n after, if changed then rest ++ g.succs n else rest⟩
          | _, _ => .stuck solution

/-! ## Many visits -/

/-- How a run ended. -/
inductive Ending where
  | finished
  | exhausted
  | stuck
deriving DecidableEq, Repr

/-- The facts that a run leaves, its visits in order, and how it ended. -/
structure Run (N F : Type) [DecidableEq N] where
  solution : Solution N F
  visits : List (Visit N F)
  ending : Ending

/-- Takes at most `limit` visits. -/
def run (p : Problem N F) (g : Graph N) : (limit : Nat) → State N F → Run N F
  | 0, s => ⟨s.solution, [], if s.queue.isEmpty then .finished else .exhausted⟩
  | limit + 1, s =>
      match step p g s with
      | .done => ⟨s.solution, [], .finished⟩
      | .stuck solution => ⟨solution, [], .stuck⟩
      | .next v s' =>
          let r := run p g limit s'
          { r with visits := v :: r.visits }

/-- The nodes that wait at the start: all but the entry. -/
def seed (g : Graph N) : List N := g.nodes.filter (· ≠ g.entry)

/-- A number of visits that suffices: one for each waiting node, and for every change of a fact one
for each successor. -/
def visitBound (p : Problem N F) (g : Graph N) (s : Solution N F) : Nat :=
  let changes := 1 + p.height g s
  (seed g).length + total (g.nodes.map fun n => changes * (g.succs n).length)

/-! ## Solving -/

/-- What an attempt leaves: the facts, the visits, and the error if it failed. -/
structure Attempt (N F : Type) [DecidableEq N] where
  solution : Solution N F
  visits : List (Visit N F)
  error : Option SolveError

/-- The facts that a forward run starts from. -/
def startForward (p : Problem N F) (g : Graph N) : Solution N F :=
  g.nodes.foldl (fun s n =>
    (s.setIn n p.initial).setOut n (if n = g.entry then p.boundary else p.initial)) ∅

/-- The facts that a run starts from. -/
def start (p : Problem N F) (g : Graph N) : Except SolveError (Solution N F) :=
  match p.direction with
  | .forward => .ok (startForward p g)
  | .backward => .error (.backwardStart p.name)

/-- Runs forward from given facts, with at most `limit` visits if there is a limit. The number of
visits is recorded unless a fact was missing. -/
def resumeForward (p : Problem N F) (g : Graph N) (limit : Option Int) (s : Solution N F) :
    Attempt N F :=
  let most : Int := limit.getD (visitBound p g s)
  let r := run p g most.toNat ⟨s, seed g⟩
  let counted := { r.solution with iterations := r.visits.length }
  match r.ending with
  | .finished => ⟨counted, r.visits, none⟩
  | .exhausted => ⟨counted, r.visits, some (.nonConvergence most)⟩
  | .stuck => ⟨r.solution, r.visits, some .missingFact⟩

/-- Runs from given facts. -/
def resume (p : Problem N F) (g : Graph N) (limit : Option Int) (s : Solution N F) :
    Attempt N F :=
  match p.direction with
  | .forward => resumeForward p g limit s
  | .backward => ⟨s, [], some .backwardRun⟩

/-- Solves a problem from the start. -/
def solve (p : Problem N F) (g : Graph N) (limit : Option Int) : Attempt N F :=
  match start p g with
  | .error e => ⟨∅, [], some e⟩
  | .ok s =>
      let a := resume p g limit s
      if a.error.isNone then { a with solution := { a.solution with converged := true } } else a

end Worklist

end Dataflow
