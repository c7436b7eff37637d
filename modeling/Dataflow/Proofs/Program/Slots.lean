import Dataflow.Proofs.Program.WellFormed

/-!
# Slots of statements

Where the form of a statement names variables, and what fills the same slots of the instruction that it is
read as.
-/

namespace Dataflow

/-! ## Slots -/

/-- The variable that is defined, the object that a load reads from, or a part of the expression, by the
numbers of the operands on the way down to it. -/
inductive Slot where
  | target
  | base
  | operand (path : List Nat)
deriving DecidableEq, Repr

/-- What lies at the end of a path. -/
def descend {α : Type} (operands : α → List α) : List Nat → α → Option α
  | [], a => some a
  | k :: path, a => (operands a)[k]?.bind (descend operands path)

namespace Form

/-- What stands for expressions in the form of an expression. -/
def operands : Form → List Form
  | .list (.symbol s :: args) =>
      if s = "cast" ∨ s = "invoke" then args.tail
      else if s = "neg" ∨ (BinOp.ofName? s).isSome then args
      else []
  | _ => []

/-- What stands in a slot of the form of a statement. -/
def slot? : Slot → Form → Option Form
  | .target, .list [.symbol "assign", x, _] => some x
  | .target, .list [.symbol "load", x, _, _] => some x
  | .base, .list [.symbol "load", _, y, _] => some y
  | .operand path, .list [.symbol "assign", _, f] => descend operands path f
  | .operand path, .list [.symbol "if", f, _] => descend operands path f
  | .operand path, .list [.symbol "return", f] => descend operands path f
  | .operand path, .list (.symbol "invoke" :: fs) => descend operands path (.list (.symbol "invoke" :: fs))
  | _, _ => none

end Form

namespace Exp

def operands : Exp → List Exp
  | .bin _ a b | .unclassed _ a b => [a, b]
  | .neg e | .cast _ e => [e]
  | .call _ args => args
  | .lit _ | .var _ | .field .. => []

end Exp

/-- What stands in a slot of an instruction. -/
def Instr.slot? : Slot → Instr → Option Exp
  | .target, .assign x _ | .target, .invoke (some x) _ | .target, .load x _ => some (.var x)
  | .base, .load _ (.field y _) => some (.var y)
  | .operand path, .assign _ e | .operand path, .invoke _ e | .operand path, .branch e _
  | .operand path, .ret (some e) => descend Exp.operands path e
  | _, _ => none

/-! ## Slots are read as they stand -/

section Relations

variable {α β : Type} {R : α → β → Prop}

theorem exists_of_rel {o : Option α} {o' : Option β} (h : Option.Rel R o o') {a : α} (ha : o = some a) :
    ∃ b, o' = some b ∧ R a b := by
  cases h with
  | none => cases ha
  | some hab =>
      cases ha
      exact ⟨_, rfl, hab⟩

theorem rel_bind {γ δ : Type} {S : γ → δ → Prop} {o : Option α} {o' : Option β} {f : α → Option γ}
    {g : β → Option δ} (h : Option.Rel R o o') (hfg : ∀ a b, R a b → Option.Rel S (f a) (g b)) :
    Option.Rel S (o.bind f) (o'.bind g) := by
  cases h with
  | none => exact .none
  | some hab => exact hfg _ _ hab

theorem rel_getElem? {l : List α} {k : List β} (h : List.Forall₂ R l k) (n : Nat) :
    Option.Rel R l[n]? k[n]? := by
  induction h generalizing n with
  | nil => exact .none
  | cons hab _ ih =>
      cases n with
      | zero => exact .some hab
      | succ n => exact ih n

theorem rel_descend {f : α → List α} {g : β → List β}
    (h : ∀ a b, R a b → List.Forall₂ R (f a) (g b)) (path : List Nat) {a : α} {b : β} (hab : R a b) :
    Option.Rel R (descend f path a) (descend g path b) := by
  induction path generalizing a b with
  | nil => exact .some hab
  | cons k path ih => exact rel_bind (rel_getElem? (h a b hab) k) fun _ _ => ih

end Relations

namespace Scope

variable {sc : Scope} {f : Form} {e : Exp} {i : Instr}

theorem ReadsAll.forall₂ {fs : List Form} {es : List Exp} (h : sc.ReadsAll fs es) :
    List.Forall₂ sc.Reads fs es := by
  induction fs generalizing es with
  | nil =>
      cases h
      exact .nil
  | cons f fs ih =>
      cases h with
      | cons hf hfs => exact .cons hf (ih hfs)

theorem operands_of_ofName? {s : String} {op : BinOp} (h : BinOp.ofName? s = some op) (args : List Form) :
    Form.operands (.list (.symbol s :: args)) = args := by
  have hcast : s ≠ "cast" := by
    rintro rfl
    cases h
  have hinvoke : s ≠ "invoke" := by
    rintro rfl
    cases h
  simp [Form.operands, h, hcast, hinvoke]

theorem Reads.operands (h : sc.Reads f e) : List.Forall₂ sc.Reads f.operands e.operands := by
  cases h with
  | int | truth | var => exact .nil
  | bin hop ha hb =>
      rw [operands_of_ofName? hop]
      exact .cons ha (.cons hb .nil)
  | neg h => exact .cons h .nil
  | cast _ h => exact .cons h .nil
  | call _ hs => exact hs.forall₂

/-- What a form in a slot stands for: only variables are defined and read from. -/
def Fills (sc : Scope) : Slot → Form → Exp → Prop
  | .operand _, f, e => sc.Reads f e
  | _, f, e => ∃ s x, f = .symbol s ∧ sc.declared.get? s = some x ∧ e = .var x

theorem Reads.fills (h : sc.Reads f e) (path : List Nat) :
    Option.Rel (sc.Fills (.operand path)) (descend Form.operands path f)
      (descend Exp.operands path e) :=
  rel_descend (fun _ _ h => h.operands) path h

theorem slot?_assignment (x : Var) (e : Exp) (p : Slot) :
    (assignment x e).slot? p = (Instr.assign x e).slot? p := by
  cases e <;> cases p <;> rfl

theorem ReadsInstr.slots (h : sc.ReadsInstr f i) (p : Slot) :
    Option.Rel (sc.Fills p) (f.slot? p) (i.slot? p) := by
  cases h with
  | assign hx he =>
      rw [slot?_assignment]
      cases p with
      | target => exact .some ⟨_, _, rfl, hx, rfl⟩
      | base => exact .none
      | operand path => exact he.fills path
  | invoke hh hfs =>
      cases p with
      | target | base => exact .none
      | operand path => exact (Reads.call hh hfs).fills path
  | load hx hy hh =>
      cases p with
      | target => exact .some ⟨_, _, rfl, hx, rfl⟩
      | base => exact .some ⟨_, _, rfl, hy, rfl⟩
      | operand path => exact .none
  | branch he _ _ =>
      cases p with
      | target | base => exact .none
      | operand path => exact he.fills path
  | retValue he =>
      cases p with
      | target | base => exact .none
      | operand path => exact he.fills path
  | goto | label | ret | nop => cases p <;> exact .none

end Scope

/-! ## Variables in slots -/

/-- What the name of a variable is read as. -/
def Slot.reading : Slot → Var → Exp
  | .operand _, x => ((Scope.truth? x.name).map .lit).getD (.var x)
  | _, x => .var x

theorem Scope.Fills.eq_reading {sc : Scope} {p : Slot} {x : Var} {e : Exp}
    (h : sc.Fills p (.symbol x.name) e) (hx : sc.declared.get? x.name = some x) : e = p.reading x := by
  cases p with
  | target | base =>
      obtain ⟨s, y, hs, hy, rfl⟩ := h
      cases hs
      rw [hx] at hy
      cases hy
      rfl
  | operand path =>
      cases h with
      | truth ht => simp [Slot.reading, ht]
      | var ht hy =>
          rw [hx] at hy
          cases hy
          simp [Slot.reading, ht]

namespace Method

/-- Wherever the body names a declared variable, the statement that is read has this variable there with its
type, unless an operand is named like a truth value: it is that value. -/
theorem slot_of_ofForm {f : Form} {m : Method} (h : ofForm f = .ok m) {x : Var} (hx : x ∈ m.vars) {i : Nat}
    {b : Form} (hb : (f.inSection "body")[i]? = some b) {p : Slot}
    (hp : b.slot? p = some (.symbol x.name)) :
    ∃ s, m.body[i]? = some s ∧ s.instr.slot? p = some (p.reading x) := by
  obtain ⟨sc, xs, -, -, -, hk, hmem, -, hreads, -⟩ := exists_scope_of_ofForm h
  have hget : sc.declared.get? x.name = some x := hk.get?_eq_some.2 ⟨(hmem x).2 hx, rfl⟩
  obtain ⟨s, hs, hread⟩ := exists_of_rel (rel_getElem? hreads i) hb
  obtain ⟨e, he, hfills⟩ := exists_of_rel (hread.slots p) hp
  exact ⟨s, hs, hfills.eq_reading hget ▸ he⟩

/-- A method that negates the size of an object and adds one. -/
def negator : Form :=
  .list [.symbol "method", .symbol "negator",
    .list [.symbol "vars", .list [.symbol "int", .symbol "x"], .list [.symbol "Object", .symbol "o"]],
    .list [.symbol "body", .list [.symbol "load", .symbol "x", .symbol "o", .symbol "size"],
      .list [.symbol "assign", .symbol "x",
        .list [.symbol "+", .int 1, .list [.symbol "neg", .symbol "x"]]]]]

theorem slot_of_ofForm_negator :
    let x : Var := ⟨"x", .prim .int⟩
    ∃ m b, ofForm negator = .ok m ∧ x ∈ m.vars ∧ (negator.inSection "body")[1]? = some b ∧
      b.slot? (.operand [1, 0]) = some (.symbol x.name) ∧
      ∃ s, m.body[1]? = some s ∧ s.instr.slot? (.operand [1, 0]) = some (.var x) := by
  intro x
  have hread : (ofForm negator).toOption.map Method.vars = some [x, ⟨"o", .ref "Object"⟩] := by
    decide +kernel
  obtain ⟨m, hm, hvars⟩ := exists_ok_of_toOption hread
  have hx : x ∈ m.vars := by simp [hvars]
  have hslot : Form.slot? (.operand [1, 0]) (.list [.symbol "assign", .symbol "x",
      .list [.symbol "+", .int 1, .list [.symbol "neg", .symbol "x"]]]) = some (.symbol x.name) := rfl
  exact ⟨m, _, hm, hx, rfl, hslot, slot_of_ofForm hm hx (i := 1) rfl hslot⟩

/-- A method that sets a variable named like a truth value to five and returns it. -/
def truthful : Form :=
  .list [.symbol "method", .symbol "truthful",
    .list [.symbol "vars", .list [.symbol "int", .symbol "true"]],
    .list [.symbol "body", .list [.symbol "assign", .symbol "true", .int 5],
      .list [.symbol "return", .symbol "true"]]]

/-- The name stands for the variable where it is set, and for one where it is returned. -/
theorem ofForm_truthful :
    let x : Var := ⟨"true", .prim .int⟩
    ∃ m b b' s s', ofForm truthful = .ok m ∧ x ∈ m.vars ∧ truthful.inSection "body" = [b, b'] ∧
      m.body = [s, s'] ∧
      b.slot? .target = some (.symbol x.name) ∧ s.instr.slot? .target = some (.var x) ∧
      b'.slot? (.operand []) = some (.symbol x.name) ∧ s'.instr.slot? (.operand []) = some (.lit 1) :=
  ⟨_, _, _, _, _, rfl, by decide, rfl, rfl, rfl, rfl, rfl, rfl⟩

end Method

end Dataflow
