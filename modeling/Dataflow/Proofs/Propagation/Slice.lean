import Dataflow.Proofs.Execution.Run
import Dataflow.Proofs.Propagation.Comparison
import Mathlib.Data.Set.Insert

/-!
# Slices of a method

A set of variables is closed if the definitions of its tracked variables read variables of the set only.
Taking the definitions of all other variables out of a method changes no value of a variable of the set.
-/

namespace Dataflow

variable {S : Set Var}

/-- A definition of a tracked variable of the set reads only variables of the set. A call and a read of
memory are not followed, so they need none. -/
def Instr.ReadsWithin (i : Instr) (S : Set Var) : Prop :=
  ∀ x ∈ S, i.target? = some x → x.tracked = true → ∀ e ∈ i.source?, ∀ y ∈ e.reads, y ∈ S

/-- An instruction before and after definitions of variables outside the set are taken out. -/
inductive Instr.Slices (i : Instr) (S : Set Var) : Instr → Prop
  | drop {x : Var} : i.target? = some x → x ∉ S → Slices i S .nop
  | keep : (∀ x, i.target? = some x → x ∈ S) → Slices i S i

/-- The second method is the first with a `nop` in place of each definition of a variable outside the
set. -/
structure Method.Slices (m : Method) (S : Set Var) (m' : Method) : Prop where
  params : m'.params = m.params
  nodup : m'.body.Nodup
  body : List.Forall₂ (fun s s' => s.instr.Slices S s'.instr) m.body m'.body

theorem Instr.Slices.control {i j : Instr} (h : i.Slices S j) : j.control = i.control := by
  cases h with
  | drop ht _ =>
      cases i with
      | assign x e => rfl
      | invoke x e => rfl
      | load x e => rfl
      | _ => cases ht
  | keep _ => rfl

theorem Exp.eval_congr {env env' : Env} :
    (e : Exp) → (∀ x ∈ e.reads, env.get x = env'.get x) → e.eval env = e.eval env'
  | .lit _, _ => by simp only [eval]
  | .var x, h => by simpa only [eval] using h x List.mem_cons_self
  | .bin _ a b, h => by
      simp only [eval]
      rw [eval_congr a fun x hx => h x (List.mem_append_left _ hx),
        eval_congr b fun x hx => h x (List.mem_append_right _ hx)]
  | .unclassed _ a b, h => by
      simp only [eval]
      rw [eval_congr a fun x hx => h x (List.mem_append_left _ hx),
        eval_congr b fun x hx => h x (List.mem_append_right _ hx)]
  | .neg _, _ | .cast .., _ | .call .., _ | .field .., _ => by simp only [eval]

namespace Propagation

variable {m m' : Method} {g g' : Graph Node} {t t' : Facts Node Env} {n n' : Node} {x : Var}
  {env env' : Env}

/-! ## One statement -/

theorem flow_congr (hreads : n.instr.ReadsWithin S) (h : ∀ y ∈ S, env.get y = env'.get y)
    (hx : x ∈ S) : (flow n env).get x = (flow n env').get x := by
  by_cases hd : n.instr.target? = some x ∧ x.tracked = true
  · obtain ⟨ht, hx'⟩ := hd
    rw [get_flow_self ht hx', get_flow_self ht hx']
    cases he : n.instr.source? with
    | none => rfl
    | some e =>
        have heval : e.eval env = e.eval env' :=
          e.eval_congr fun y hy => h y (hreads x hx ht hx' e he y hy)
        rw [Option.map_some, Option.map_some, heval]
  · rw [(flow_get n env x).resolve_right hd, (flow_get n env' x).resolve_right hd, h x hx]

theorem flow_slice (n n' : Node) (hs : n.instr.Slices S n'.instr) (hreads : n.instr.ReadsWithin S)
    (h : ∀ y ∈ S, env.get y = env'.get y) (hx : x ∈ S) :
    (flow n env).get x = (flow n' env').get x := by
  generalize hi : n'.instr = i at hs
  cases hs with
  | @drop y ht hy =>
      have hne : n.instr.target? ≠ some x := fun hc => hy (Option.some.inj (ht.symm.trans hc) ▸ hx)
      have hnop : n'.instr.target? ≠ some x := by simp [hi, Instr.target?]
      rw [get_flow_of_ne hne, get_flow_of_ne hnop, h x hx]
  | keep _ =>
      have hsame : flow n' env' = flow n env' := by simp only [flow, hi]
      rw [hsame]
      exact flow_congr hreads h hx

/-! ## Whole methods -/

theorem solvesTo_slice (hnodup : m.body.Nodup) (hS : ∀ s ∈ m.body, s.instr.ReadsWithin S)
    (hs : m.Slices S m') (hg : m.graph = .ok g) (h : LeastSolution m g t) :
    ∃ g' t', m'.graph = .ok g' ∧ SolvesTo m' g' t' ∧ AgreeOn S m m' t t' := by
  have ha : m.Aligned m' := .of_forall₂ hnodup hs.nodup hs.body fun _ _ => Instr.Slices.control
  obtain ⟨g', hg'⟩ := ha.exists_graph hg
  obtain ⟨t', ht', h'⟩ := exists_solvesTo m' (Method.dst_ne_entry hg')
  refine ⟨g', t', hg', ht', h.agreeOn ha hs.params hg hg' h' ?_ ?_⟩
  · intro s s' hm env henv y hy
    obtain ⟨hmem, -, hsl⟩ := hm.rel hs.body
    rw [h.after_stmt hg hmem]
    exact (flow_slice (.stmt s) (.stmt s') hsl (hS s hmem) (fun z hz => (henv z hz).symm) hy).ge
  · intro s' s hm env henv y hy
    obtain ⟨hmem, hmem', hsl⟩ := hm.symm.rel hs.body
    rw [h'.after_stmt hg' hmem']
    exact (flow_slice (.stmt s) (.stmt s') hsl (hS s hmem) henv hy).le

/-- Taking out the definitions of variables outside a closed set keeps the values of those inside. -/
theorem solve_slice (h : m.graph = .ok g) (hnodup : m.body.Nodup) {S : Set Var}
    (hS : ∀ s ∈ m.body, s.instr.ReadsWithin S) :
    ∃ t, SolvesTo m g t ∧ ∀ m', m.Slices S m' →
      ∃ g' t', m'.graph = .ok g' ∧ SolvesTo m' g' t' ∧ AgreeOn S m m' t t' := by
  obtain ⟨t, ht, hleast⟩ := exists_solvesTo m (Method.dst_ne_entry h)
  exact ⟨t, ht, fun m' hs => solvesTo_slice hnodup hS hs h hleast⟩

theorem solve_slice_settle :
    let k : Var := ⟨"k", .prim .int⟩
    let m' : Method := { settle with
      body := [⟨0, .assign k (.lit 2)⟩, ⟨1, .label "top"⟩, ⟨2, .nop⟩,
        ⟨3, .assign k (.bin .sub (.lit 4) (.var k))⟩, ⟨4, .nop⟩,
        ⟨5, .branch (.bin .gt (.var ⟨"n", .prim .int⟩) (.lit 0)) "top"⟩, ⟨6, .ret (some (.var k))⟩] }
    settle.body.Nodup ∧ (∀ s ∈ settle.body, s.instr.ReadsWithin {k}) ∧ settle.Slices {k} m' ∧
      ∃ g t g' t', settle.graph = .ok g ∧ SolvesTo settle g t ∧ m'.graph = .ok g' ∧
        SolvesTo m' g' t' ∧ AgreeOn {k} settle m' t t' := by
  intro k m'
  have hnodup : settle.body.Nodup := by decide
  have hreads : ∀ s ∈ settle.body, s.instr.ReadsWithin {k} := by
    simp [settle, Instr.ReadsWithin, Instr.target?, Instr.source?, Exp.reads, k]
  have hslices : settle.Slices {k} m' := by
    refine ⟨rfl, by decide, ?_⟩
    simp only [settle, m', List.forall₂_cons, List.forall₂_nil_left_iff, and_true]
    refine ⟨.keep ?_, .keep ?_, .drop rfl ?_, .keep ?_, .drop rfl ?_, .keep ?_, .keep ?_⟩ <;>
      simp [Instr.target?, k]
  obtain ⟨t, ht, hall⟩ := solve_slice (m := settle) rfl hnodup hreads
  obtain ⟨g', t', hg', ht', hagree⟩ := hall m' hslices
  exact ⟨hnodup, hreads, hslices, _, t, g', t', rfl, ht, hg', ht', hagree⟩

end Propagation

end Dataflow
