import Dataflow.Env
import Dataflow.Proofs.OrderedMap
import Dataflow.Proofs.Value.Order
import Mathlib.Order.Antisymmetrization

/-!
# The order of environments

Environments are compared variable by variable. Two that are below each other need not list their
variables in one order, so this is a preorder; they are then the same environment to every reader.
-/

namespace Dataflow.Env

instance : Preorder Env where
  le e f := ∀ x, e.get x ≤ f.get x
  le_refl e x := le_refl (e.get x)
  le_trans e f g h k x := (h x).trans (k x)

theorem empty_le (e : Env) : empty ≤ e := fun x => Value.undef_le (e.get x)

theorem antisymm_iff {e f : Env} : AntisymmRel (· ≤ ·) e f ↔ ∀ x, e.get x = f.get x :=
  ⟨fun h x => le_antisymm (h.1 x) (h.2 x), fun h => ⟨fun x => (h x).le, fun x => (h x).ge⟩⟩

/-! ## Bindings -/

theorem ext {e f : Env} (h : e.bindings = f.bindings) : e = f := by
  cases e
  cases f
  simpa using h

theorem get?_bindings {e : Env} {x : Var} {v : Value} :
    e.bindings.get? x = some v ↔ e.get x = v ∧ v ≠ .undef := by
  constructor
  · intro h
    exact ⟨by simp [get, h], e.defined (x, v) (OrderedMap.get?_eq_some_iff.1 h)⟩
  · rintro ⟨rfl, hv⟩
    cases h : e.bindings.get? x with
    | some w => simp [get, h]
    | none => simp [get, h] at hv

theorem mem_keys {e : Env} {x : Var} : x ∈ e.bindings.keys ↔ e.get x ≠ .undef := by
  simp [OrderedMap.mem_keys, get?_bindings]

theorem keys_eq_nil_iff {e : Env} : e.bindings.keys = [] ↔ ∀ x, e.get x = .undef := by
  simp only [List.eq_nil_iff_forall_not_mem, mem_keys, not_not]

theorem same_iff {e f : Env} : e.same f = true ↔ ∀ x, e.get x = f.get x := by
  rw [same, OrderedMap.sameBy_iff]
  constructor
  · intro h x; simp only [get, h x]
  · intro h x
    ext v
    rw [get?_bindings, get?_bindings, h x]

/-! ## Writing -/

theorem set_mono {e f : Env} (x : Var) {v w : Value} (h : e ≤ f) (hv : v ≤ w) :
    e.set x v ≤ f.set x w := by
  intro y
  rw [get_set, get_set]
  split
  · exact hv
  · exact h y

theorem assign_unchanged_iff {old new : Env} :
    (old.assign new).2 = false ↔ AntisymmRel (· ≤ ·) old (old.assign new).1 := by
  rw [antisymm_iff, ← same_iff]
  by_cases h : old.same new = true
  · simp [assign, h, same_iff]
  · simp [assign, h]

theorem assign_changed_iff (old new : Env) :
    (old.assign new).2 = true ↔ ∃ y, (old.assign new).1.get y ≠ old.get y := by
  rw [← not_iff_not, Bool.not_eq_true, assign_unchanged_iff, antisymm_iff, not_exists]
  simp only [not_not, eq_comm]

theorem update_changed_iff (e : Env) (x : Var) (v : Value) :
    (e.update x v).2 = true ↔ ∃ y, (e.update x v).1.get y ≠ e.get y := by
  simp only [update, decide_eq_true_iff, get_set]
  constructor
  · intro hne
    exact ⟨x, by rw [if_pos rfl]; exact hne.symm⟩
  · rintro ⟨y, hy⟩
    split at hy
    · next hxy => exact hxy ▸ hy.symm
    · exact absurd rfl hy

theorem assign_of_unchanged {old new : Env} (h : (old.assign new).2 = false) :
    (old.assign new).1 = old := by
  unfold assign at h ⊢
  split at h
  · next hsame => rw [if_pos hsame]
  · cases h

theorem set_get_self {e : Env} {x : Var} (h : e.get x ≠ .undef) : e.set x (e.get x) = e := by
  have hget : e.bindings.get? x = some (e.get x) := get?_bindings.2 ⟨rfl, h⟩
  obtain ⟨bindings, hdefined⟩ := e
  simp only [set, dif_neg h, OrderedMap.insert_of_get? hget]

/-- Setting the bindings of an environment one by one makes it again. -/
theorem ofList_toList (e : Env) : ofList e.bindings.toList = e := by
  have hfold : ∀ (l : List (Var × Value)) (f : Env), (∀ p ∈ l, p.2 ≠ .undef) →
      (l.foldl (fun f p => f.set p.1 p.2) f).bindings =
        l.foldl (fun m p => m.insert p.1 p.2) f.bindings := by
    intro l
    induction l with
    | nil => exact fun _ _ => rfl
    | cons p l ih =>
        intro f hl
        rw [List.foldl_cons, List.foldl_cons, ih _ fun q hq => hl q (List.mem_cons_of_mem p hq), set,
          dif_neg (hl p List.mem_cons_self)]
  exact ext ((hfold _ empty e.defined).trans (OrderedMap.ext (OrderedMap.toList_ofList e.bindings.nodup)))

theorem assign_fst (old new : Env) : AntisymmRel (· ≤ ·) (old.assign new).1 new := by
  simp only [assign]
  split
  · next h => exact antisymm_iff.2 (same_iff.1 h)
  · exact AntisymmRel.refl _ new

/-! ## Merging -/

theorem get_foldl_meet {l : List (Var × Value)} (h : (l.map Prod.fst).Nodup) (e : Env) (x : Var) :
    (l.foldl (fun t p => t.set p.1 ((t.get p.1).meet p.2)) e).get x =
      (e.get x).meet ((OrderedMap.lookupIn x l).getD .undef) := by
  induction l generalizing e with
  | nil => simp [OrderedMap.lookupIn]
  | cons p r ih =>
      obtain ⟨y, v⟩ := p
      rw [List.map_cons, List.nodup_cons] at h
      rw [List.foldl_cons, ih h.2, get_set]
      by_cases hy : y = x
      · subst hy
        simp [OrderedMap.lookupIn, OrderedMap.lookupIn_eq_none_iff.2 h.1]
      · simp [OrderedMap.lookupIn, hy]

theorem get_merge (source target : Env) (x : Var) :
    (source.merge target).get x = (target.get x).meet (source.get x) :=
  get_foldl_meet source.bindings.nodup target x

theorem le_merge_left (source target : Env) : source ≤ source.merge target := fun x => by
  rw [get_merge]; exact Value.le_meet_right _ _

theorem le_merge_right (source target : Env) : target ≤ source.merge target := fun x => by
  rw [get_merge]; exact Value.le_meet_left _ _

theorem merge_le {source target e : Env} (hs : source ≤ e) (ht : target ≤ e) :
    source.merge target ≤ e := fun x => by
  rw [get_merge]; exact Value.meet_le (ht x) (hs x)

theorem merge_of_le {source target : Env} (h : source ≤ target) : source.merge target = target := by
  have hfold : ∀ l : List (Var × Value), (∀ p ∈ l, p.2 ≠ .undef ∧ p.2 ≤ target.get p.1) →
      l.foldl (fun t p => t.set p.1 ((t.get p.1).meet p.2)) target = target := by
    intro l hl
    induction l with
    | nil => rfl
    | cons p l ih =>
        obtain ⟨hdefined, hle⟩ := hl p List.mem_cons_self
        have hne : target.get p.1 ≠ .undef := fun he => hdefined (Value.le_undef.1 (he ▸ hle))
        rw [List.foldl_cons, Value.meet_of_le hle, set_get_self hne]
        exact ih fun q hq => hl q (List.mem_cons_of_mem p hq)
  refine hfold _ fun p hp => ⟨source.defined p hp, ?_⟩
  have hget : source.get p.1 = p.2 := (get?_bindings.1 (OrderedMap.get?_eq_some_iff.2 hp)).1
  exact hget ▸ h p.1

end Dataflow.Env
