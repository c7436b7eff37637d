import Dataflow.Proofs.Env.Order
import Mathlib.Logic.Function.Basic
import Mathlib.Order.Bounds.Defs

/-!
# Merging environments one by one

Environments that are kept under names, one of which the others are merged into. It becomes the least one
above them all, whatever their order and however often each of them is merged; the others stay as they are.
-/

namespace Dataflow.Env

/-- Environments under names. -/
abbrev Named (R : Type) := R → Env

namespace Named

variable {R : Type} [DecidableEq R]

/-- Merges one environment into another, or into itself. -/
def merge (s : Named R) (target source : R) : Named R :=
  Function.update s target ((s source).merge (s target))

/-- Merges the environments into another one from left to right. -/
def mergeAll (s : Named R) (target : R) (sources : List R) : Named R :=
  sources.foldl (fun s source => s.merge target source) s

variable {s : Named R} {target r : R} {sources sources' : List R} {x : Var} {v : Value}

theorem merge_of_ne (source : R) (h : r ≠ target) : s.merge target source r = s r :=
  Function.update_of_ne h _ s

theorem get_merge_self (s : Named R) (target source : R) (x : Var) :
    (s.merge target source target).get x = ((s target).get x).meet ((s source).get x) := by
  rw [merge, Function.update_self, get_merge]

theorem merge_self (s : Named R) (target : R) : s.merge target target = s := by
  rw [merge, merge_of_le (le_refl _), Function.update_eq_self]

theorem mergeAll_of_ne (h : r ≠ target) : s.mergeAll target sources r = s r := by
  induction sources generalizing s with
  | nil => rfl
  | cons source sources ih =>
      rw [mergeAll, List.foldl_cons, ← mergeAll, ih, merge_of_ne source h]

theorem mergeAll_of_forall_eq (h : ∀ r ∈ sources, r = target) : s.mergeAll target sources = s := by
  induction sources with
  | nil => rfl
  | cons source sources ih =>
      obtain ⟨hsource, hrest⟩ := List.forall_mem_cons.1 h
      rw [mergeAll, List.foldl_cons, ← mergeAll, hsource, merge_self, ih hrest]

/-- A value is above the merged one exactly if it is above all that were there before. -/
theorem get_mergeAll_le_iff : (s.mergeAll target sources target).get x ≤ v ↔
    (s target).get x ≤ v ∧ ∀ r ∈ sources, (s r).get x ≤ v := by
  induction sources generalizing s with
  | nil => simp [mergeAll]
  | cons source sources ih =>
      rw [mergeAll, List.foldl_cons, ← mergeAll, ih, get_merge_self, Value.meet_le_iff,
        List.forall_mem_cons, and_assoc]
      refine and_congr_right fun htarget => and_congr_right fun hsource => forall₂_congr fun r _ => ?_
      -- the target may be one of the sources that are still to come
      by_cases hr : r = target
      · subst hr
        rw [get_merge_self, Value.meet_le_iff]
        exact and_iff_left hsource
      · rw [merge_of_ne source hr]

theorem same_mergeAll (h : ∀ r, r ∈ sources' ↔ r ∈ sources) :
    (s.mergeAll target sources' target).same (s.mergeAll target sources target) = true := by
  refine same_iff.2 fun x => eq_of_forall_ge_iff fun v => ?_
  rw [get_mergeAll_le_iff, get_mergeAll_le_iff]
  simp only [h]

/-- Merging environments into one of them gives every variable the least value above all its values. Neither
the order of the list nor repetitions count, no other environment changes, and merging an environment into
itself changes nothing. -/
theorem mergeAll_least (s : Named R) (target : R) (sources : List R) :
    (∀ x, IsLeast {v | (s target).get x ≤ v ∧ ∀ r ∈ sources, (s r).get x ≤ v}
      ((s.mergeAll target sources target).get x)) ∧
    (∀ sources', (∀ r, r ∈ sources' ↔ r ∈ sources) →
      (s.mergeAll target sources' target).same (s.mergeAll target sources target) = true) ∧
    (∀ r, r ≠ target → s.mergeAll target sources r = s r) ∧
    ((∀ r ∈ sources, r = target) → s.mergeAll target sources = s) := by
  refine ⟨fun x => ⟨?_, fun v hv => ?_⟩, fun _ => same_mergeAll, fun _ => mergeAll_of_ne,
    mergeAll_of_forall_eq⟩
  · exact get_mergeAll_le_iff.1 (le_refl _)
  · exact get_mergeAll_le_iff.2 hv

/-- Environments with a variable in all three, once with a constant that does not fit 32 bits. -/
def samples : Named (Fin 3) := fun r =>
  .ofList ([[(⟨"x", .prim .int⟩, .const 1)], [(⟨"y", .prim .int⟩, .nac), (⟨"x", .prim .int⟩, .const 1)],
    [(⟨"x", .prim .int⟩, .const 4294967297), (⟨"z", .prim .char⟩, .const 5)]].getD r [])

theorem mergeAll_least_samples :
    IsLeast {v | (samples 0).get ⟨"x", .prim .int⟩ ≤ v ∧
      ∀ r ∈ [1, 2, 0, 1], (samples r).get ⟨"x", .prim .int⟩ ≤ v} .nac ∧
    (samples.mergeAll 0 [0, 1, 2] 0).same (samples.mergeAll 0 [1, 2, 0, 1] 0) = true ∧
    samples.mergeAll 0 [1, 2, 0, 1] 2 = samples 2 ∧ samples.mergeAll 2 [2, 2] = samples := by
  obtain ⟨hleast, hsame, hother, -⟩ := mergeAll_least samples 0 [1, 2, 0, 1]
  obtain ⟨-, -, -, hself⟩ := mergeAll_least samples 2 [2, 2]
  have hvalue : (samples.mergeAll 0 [1, 2, 0, 1] 0).get ⟨"x", .prim .int⟩ = .nac := by decide
  refine ⟨hvalue ▸ hleast ⟨"x", .prim .int⟩, hsame [0, 1, 2] ?_, hother 2 (by decide), hself (by decide)⟩
  decide

end Named

end Dataflow.Env
