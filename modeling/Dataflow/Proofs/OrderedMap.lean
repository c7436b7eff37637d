import Dataflow.OrderedMap
import Mathlib.Data.List.Perm.Subperm

/-!
# Ordered maps by look-up

Which keys a map has, and that two maps compare equal exactly when every look-up agrees, whatever the
orders in which they were built.
-/

namespace Dataflow.OrderedMap

variable {K V : Type}

theorem length_keys (m : OrderedMap K V) : m.keys.length = m.size := List.length_map _

theorem ext {m₁ m₂ : OrderedMap K V} (h : m₁.toList = m₂.toList) : m₁ = m₂ := by
  cases m₁
  cases m₂
  simpa using h

variable [DecidableEq K]

theorem lookupIn_eq_none_iff {k : K} {l : List (K × V)} :
    lookupIn k l = none ↔ k ∉ l.map Prod.fst := by
  induction l with
  | nil => simp [lookupIn]
  | cons p r ih =>
      obtain ⟨a, b⟩ := p
      simp only [lookupIn, List.map_cons, List.mem_cons, not_or, ← ih]
      split
      · next h => simp [h]
      · next h => simp [Ne.symm h]

theorem get?_eq_none_iff {m : OrderedMap K V} {k : K} : m.get? k = none ↔ k ∉ m.keys :=
  lookupIn_eq_none_iff

theorem mem_keys {m : OrderedMap K V} {k : K} : k ∈ m.keys ↔ ∃ v, m.get? k = some v := by
  rw [← Option.ne_none_iff_exists', Ne, get?_eq_none_iff, not_not]

theorem insertIn_of_lookupIn {k : K} {v : V} {l : List (K × V)} (h : lookupIn k l = some v) :
    insertIn k v l = l := by
  induction l with
  | nil => cases h
  | cons p r ih =>
      simp only [lookupIn] at h
      simp only [insertIn]
      split at h
      · next hk =>
          cases h
          rw [if_pos hk]
      · next hk => rw [if_neg hk, ih h]

theorem insert_of_get? {m : OrderedMap K V} {k : K} {v : V} (h : m.get? k = some v) :
    m.insert k v = m := by
  simp only [insert, insertIn_of_lookupIn h]

theorem insertIn_of_lookupIn_eq_none {k : K} {v : V} {l : List (K × V)} (h : lookupIn k l = none) :
    insertIn k v l = l ++ [(k, v)] := by
  induction l with
  | nil => rfl
  | cons p r ih =>
      simp only [lookupIn] at h
      split at h
      · cases h
      · next hk => rw [insertIn, if_neg hk, ih h, List.cons_append]

theorem toList_insert_of_get?_eq_none {m : OrderedMap K V} {k : K} {v : V} (h : m.get? k = none) :
    (m.insert k v).toList = m.toList ++ [(k, v)] := insertIn_of_lookupIn_eq_none h

theorem mem_insertIn {k : K} {v : V} {p : K × V} {l : List (K × V)} (h : p ∈ insertIn k v l) :
    p = (k, v) ∨ p ∈ l := by
  induction l with
  | nil => exact .inl (List.mem_singleton.1 h)
  | cons q r ih =>
      simp only [insertIn] at h
      split at h
      · next hk =>
          cases h with
          | head => exact .inl (by rw [hk])
          | tail _ h => exact .inr (List.mem_cons_of_mem q h)
      · cases h with
        | head => exact .inr List.mem_cons_self
        | tail _ h => exact (ih h).imp_right (List.mem_cons_of_mem q)

/-- New keys are bound at the end in their order. -/
theorem toList_foldl_insert {l : List (K × V)} {m : OrderedMap K V} (hl : (l.map Prod.fst).Nodup)
    (hm : ∀ p ∈ l, m.get? p.1 = none) :
    (l.foldl (fun m p => m.insert p.1 p.2) m).toList = m.toList ++ l := by
  induction l generalizing m with
  | nil => simp
  | cons p l ih =>
      rw [List.map_cons, List.nodup_cons] at hl
      have hrest : ∀ q ∈ l, (m.insert p.1 p.2).get? q.1 = none := by
        intro q hq
        have hne : p.1 ≠ q.1 := fun h => hl.1 (h ▸ List.mem_map_of_mem hq)
        rw [get?_insert, if_neg hne]
        exact hm q (List.mem_cons_of_mem p hq)
      rw [List.foldl_cons, ih hl.2 hrest, toList_insert_of_get?_eq_none (hm p List.mem_cons_self),
        List.append_assoc, List.singleton_append]

theorem toList_ofList {l : List (K × V)} (h : (l.map Prod.fst).Nodup) : (ofList l).toList = l :=
  toList_foldl_insert h fun _ _ => rfl

variable [DecidableEq V]

theorem sameBy_iff {m₁ m₂ : OrderedMap K V} :
    m₁.sameBy (fun v w => v = w) m₂ = true ↔ ∀ k, m₁.get? k = m₂.get? k := by
  simp only [sameBy, Bool.and_eq_true, beq_iff_eq, List.all_eq_true]
  constructor
  · rintro ⟨hsize, hall⟩ k
    have hbound : ∀ {k v}, m₁.get? k = some v → m₂.get? k = some v := by
      intro k v hk
      have hp := hall (k, v) (get?_eq_some_iff.1 hk)
      simp only at hp
      split at hp
      · next w hw => rw [hw, of_decide_eq_true hp]
      · cases hp
    -- Equal numbers of keys leave no room for a key that only the second map has.
    have hkeys : m₁.keys.Perm m₂.keys := by
      refine (List.Nodup.subperm m₁.nodup fun k hk => ?_).perm_of_length_le ?_
      · obtain ⟨v, hv⟩ := mem_keys.1 hk
        exact mem_keys.2 ⟨v, hbound hv⟩
      · exact Nat.le_of_eq (m₂.length_keys.trans (hsize.symm.trans m₁.length_keys.symm))
    cases h : m₁.get? k with
    | some v => exact (hbound h).symm
    | none => exact (get?_eq_none_iff.2 fun hk => get?_eq_none_iff.1 h (hkeys.mem_iff.2 hk)).symm
  · intro h
    have hkeys : m₁.keys.Perm m₂.keys := by
      refine (List.perm_ext_iff_of_nodup m₁.nodup m₂.nodup).2 fun k => ?_
      change k ∈ m₁.keys ↔ k ∈ m₂.keys
      rw [mem_keys, mem_keys, h k]
    refine ⟨by rw [← length_keys, ← length_keys, hkeys.length_eq], fun p hp => ?_⟩
    have hk : m₂.get? p.1 = some p.2 := by rw [← h p.1]; exact get?_eq_some_iff.2 hp
    simp [hk]

end Dataflow.OrderedMap
