import Dataflow.Proofs.Execution.Word
import Dataflow.Proofs.Method.Edges
import Mathlib.Logic.Function.Basic

/-!
# Runs of a method

A run counts through the positions of a method and keeps a word for every variable that was assigned.
Calls, casts, negations and reads of memory yield any word, and a branch may go either way. A run stops
where it needs a variable without a word or an expression outside every operator family, divides by
zero, returns, or is past the last position.
-/

namespace Dataflow

/-- The words of the variables that were assigned. -/
abbrev Store := Var → Option Word

/-- The words that an expression may yield. -/
inductive Exp.Yields (σ : Store) : Exp → Word → Prop
  | lit {n : Int} : Yields σ (.lit n) (BitVec.ofInt 32 n)
  | var {x : Var} {w : Word} : σ x = some w → Yields σ (.var x) w
  | bin {op : BinOp} {a b : Exp} {u v w : Word} :
      Yields σ a u → Yields σ b v → op.onWords u v = some w → Yields σ (.bin op a b) w
  | neg {e : Exp} {w : Word} : Yields σ (.neg e) w
  | cast {t : Ty} {e : Exp} {w : Word} : Yields σ (.cast t e) w
  | call {f : String} {args : List Exp} {w : Word} : Yields σ (.call f args) w
  | field {x : Var} {f : String} {w : Word} : Yields σ (.field x f) w

/-- The variables whose words an expression needs. -/
def Exp.reads : Exp → List Var
  | .var x => [x]
  | .bin _ a b | .unclassed _ a b => a.reads ++ b.reads
  | .lit _ | .neg _ | .cast .. | .call .. | .field .. => []

/-- What an instruction does to the store. -/
inductive Instr.Effect (i : Instr) (σ : Store) : Store → Prop
  | define {x : Var} {e : Exp} {w : Word} :
      i.target? = some x → i.source? = some e → e.Yields σ w → Effect i σ (Function.update σ x (some w))
  | skip : i.target? = none → Effect i σ σ

structure Config where
  pos : Nat
  store : Store

namespace Method

/-- Every variable that a definition needs fits a 32-bit integer. -/
def ReadsTracked (m : Method) : Prop :=
  ∀ s ∈ m.body, ∀ e ∈ s.instr.source?, ∀ x ∈ e.reads, x.tracked = true

/-- The position after position `i`, where `s` stands. A jump leads to where its label stands. -/
inductive Next (m : Method) (i : Nat) (s : Stmt) : Nat → Prop
  | jump {l : String} {t : Stmt} {j : Nat} :
      s.instr.jump? = some l → m.label? l = some t → m.body[j]? = some t → Next m i s j
  | next : s.instr.fallsThrough = true → Next m i s (i + 1)

/-- At the start the parameters that fit a 32-bit integer have any word, all else has none. -/
def Starts (m : Method) (σ : Store) : Prop :=
  ∀ x, (σ x).isSome ↔ x ∈ m.params ∧ x.tracked = true

inductive Step (m : Method) : Config → Config → Prop
  | mk {i j : Nat} {s : Stmt} {σ σ' : Store} :
      m.body[i]? = some s → s.instr.Effect σ σ' → m.Next i s j → Step m ⟨i, σ⟩ ⟨j, σ'⟩

inductive Reaches (m : Method) : Config → Prop
  | start {σ : Store} : m.Starts σ → Reaches m ⟨0, σ⟩
  | step {c c' : Config} : Reaches m c → m.Step c c' → Reaches m c'

theorem Next.leads {m : Method} {i j : Nat} {s : Stmt} (h : m.Next i s j) :
    m.Leads i s (m.nodeAt j) := by
  cases h with
  | jump hl ht hj =>
      rw [nodeAt_of_getElem? hj]
      exact .jump hl ht
  | next hf => exact .next hf

end Method

end Dataflow
