import Dataflow.OrderedMap
import Dataflow.Value
import Dataflow.Variable

/-!
# Environments

An environment gives every variable a value. Only values other than `undef` are stored, so a
variable that is absent and one that is undefined are the same, and two environments agree exactly
when they give every variable the same value.
-/

namespace Dataflow

/-- The variables with a value other than `undef`, in the order in which they got one. -/
structure Env where
  bindings : OrderedMap Var Value
  defined : ∀ p ∈ bindings.toList, p.2 ≠ .undef

namespace Env

/-! ## Reading and writing -/

/-- Every variable is undefined. -/
def empty : Env := ⟨.empty, nofun⟩

instance : EmptyCollection Env := ⟨empty⟩

/-- The value of a variable. -/
def get (e : Env) (x : Var) : Value := (e.bindings.get? x).getD .undef

theorem mem_insertIn {x : Var} {v : Value} {l : List (Var × Value)} {p : Var × Value}
    (h : p ∈ OrderedMap.insertIn x v l) : p.2 = v ∨ p ∈ l := by
  induction l with
  | nil =>
      rw [OrderedMap.insertIn, List.mem_singleton] at h
      exact .inl (by rw [h])
  | cons q r ih =>
      simp only [OrderedMap.insertIn] at h
      split at h
      · rcases List.mem_cons.1 h with h | h
        · exact .inl (by rw [h])
        · exact .inr (List.mem_cons_of_mem _ h)
      · rcases List.mem_cons.1 h with h | h
        · exact .inr (h ▸ List.mem_cons_self)
        · exact (ih h).imp id (List.mem_cons_of_mem _)

/-- The environment without a variable. -/
def erase (e : Env) (x : Var) : Env :=
  ⟨e.bindings.erase x, fun p hp => e.defined p (List.mem_filter.1 hp).1⟩

/-- Gives a variable a value; `undef` removes it. -/
def set (e : Env) (x : Var) (v : Value) : Env :=
  if h : v = .undef then e.erase x
  else ⟨e.bindings.insert x v, fun p hp => (mem_insertIn hp).elim (fun hv => hv ▸ h) (e.defined p)⟩

/-- Sets a variable and tells whether its value changed. -/
def update (e : Env) (x : Var) (v : Value) : Env × Bool := (e.set x v, decide (e.get x ≠ v))

/-- Removes a variable and hands out the value it had. -/
def remove (e : Env) (x : Var) : Env × Option Value := (e.erase x, e.bindings.get? x)

/-- Sets the pairs from left to right. -/
def ofList (l : List (Var × Value)) : Env := l.foldl (fun e p => e.set p.1 p.2) empty

@[simp] theorem get_empty (x : Var) : empty.get x = .undef := rfl

theorem get_erase (e : Env) (x y : Var) :
    (e.erase x).get y = if x = y then .undef else e.get y := by
  simp only [get, erase, OrderedMap.get?_erase]; split <;> rfl

theorem get_set (e : Env) (x y : Var) (v : Value) :
    (e.set x v).get y = if x = y then v else e.get y := by
  unfold set
  split
  · next h => rw [get_erase, h]
  · simp only [get, OrderedMap.get?_insert]; split <;> rfl

/-! ## Comparing and merging -/

/-- Whether both environments give every variable the same value. -/
def same (e₁ e₂ : Env) : Bool := e₁.bindings.sameBy (fun v w => v = w) e₂.bindings

/-- Becomes `new`, and whether anything changed; an environment that agrees stays as it is. -/
def assign (old new : Env) : Env × Bool := if old.same new then (old, false) else (new, true)

/-- Meets the values of `source` into `target`. -/
def merge (source target : Env) : Env :=
  source.bindings.toList.foldl (fun t p => t.set p.1 ((t.get p.1).meet p.2)) target

/-! ## Text -/

/-- The bindings by name; variables of one name keep their order. -/
def sorted (e : Env) : List (Var × Value) :=
  e.bindings.toList.mergeSort fun p q => !(q.1.name < p.1.name : Bool)

/-- The texts of the values by name; of variables with one name the last counts. -/
def texts (e : Env) : OrderedMap String String :=
  .ofList (e.sorted.map fun p => (p.1.name, p.2.text))

/-- An environment as written in reports. -/
def text (e : Env) : String :=
  "\x7b" ++ ", ".intercalate (e.sorted.map fun p => p.1.name ++ "=" ++ p.2.text) ++ "\x7d"

end Env

end Dataflow
