/-!
# Finite maps that remember the order of insertion

A key that is bound again keeps its place; a key that is removed and bound again moves to the end.
-/

namespace Dataflow

/-- A list of bindings in which no key occurs twice. -/
structure OrderedMap (K V : Type) where
  toList : List (K × V)
  nodup : (toList.map Prod.fst).Nodup

namespace OrderedMap

variable {K V : Type} [DecidableEq K]

/-! ## Operations on lists of bindings -/

/-- The value bound to `k`. -/
def lookupIn (k : K) : List (K × V) → Option V
  | [] => none
  | (k', v) :: r => if k' = k then some v else lookupIn k r

/-- Binds `k` in place, or at the end if it is new. -/
def insertIn (k : K) (v : V) : List (K × V) → List (K × V)
  | [] => [(k, v)]
  | (k', v') :: r => if k' = k then (k', v) :: r else (k', v') :: insertIn k v r

/-- Drops the binding of `k`. -/
def eraseIn (k : K) (l : List (K × V)) : List (K × V) :=
  l.filter fun p => p.1 ≠ k

theorem mem_keys_insertIn {k k' : K} {v : V} {l : List (K × V)} :
    k' ∈ (insertIn k v l).map Prod.fst ↔ k' = k ∨ k' ∈ l.map Prod.fst := by
  induction l with
  | nil => simp [insertIn]
  | cons p r ih =>
      simp only [insertIn]
      split
      · next h => simp [h]
      · next h => simp only [List.map_cons, List.mem_cons, ih]; exact or_left_comm

theorem nodup_insertIn {k : K} {v : V} {l : List (K × V)} (h : (l.map Prod.fst).Nodup) :
    ((insertIn k v l).map Prod.fst).Nodup := by
  induction l with
  | nil => simp [insertIn]
  | cons p r ih =>
      have hp : p.1 ∉ r.map Prod.fst ∧ (r.map Prod.fst).Nodup := by simpa using h
      simp only [insertIn]
      split
      · simpa using h
      · next hk =>
          rw [List.map_cons, List.nodup_cons, mem_keys_insertIn]
          exact ⟨fun e => e.elim hk hp.1, ih hp.2⟩

theorem nodup_eraseIn {k : K} {l : List (K × V)} (h : (l.map Prod.fst).Nodup) :
    ((eraseIn k l).map Prod.fst).Nodup :=
  List.Nodup.sublist (List.Sublist.map _ List.filter_sublist) h

/-! ## The map -/

/-- No bindings. -/
def empty : OrderedMap K V := ⟨[], List.nodup_nil⟩

instance : EmptyCollection (OrderedMap K V) := ⟨empty⟩

/-- The value bound to `k`. -/
def get? (m : OrderedMap K V) (k : K) : Option V := lookupIn k m.toList

/-- Binds `k` to `v`. -/
def insert (m : OrderedMap K V) (k : K) (v : V) : OrderedMap K V :=
  ⟨insertIn k v m.toList, nodup_insertIn m.nodup⟩

/-- Removes the binding of `k`. -/
def erase (m : OrderedMap K V) (k : K) : OrderedMap K V :=
  ⟨eraseIn k m.toList, nodup_eraseIn m.nodup⟩

/-- The keys in order. -/
def keys (m : OrderedMap K V) : List K := m.toList.map Prod.fst

/-- The number of bindings. -/
def size (m : OrderedMap K V) : Nat := m.toList.length

/-- Whether `k` is bound. -/
def contains (m : OrderedMap K V) (k : K) : Bool := (m.get? k).isSome

/-- Binds the pairs from left to right, so the last value of a key wins at its first place. -/
def ofList (l : List (K × V)) : OrderedMap K V :=
  l.foldl (fun m p => m.insert p.1 p.2) empty

/-! ## Look-up after each operation -/

theorem lookupIn_insertIn (k k' : K) (v : V) (l : List (K × V)) :
    lookupIn k' (insertIn k v l) = if k = k' then some v else lookupIn k' l := by
  induction l with
  | nil => simp [insertIn, lookupIn]
  | cons p r ih =>
      obtain ⟨a, b⟩ := p
      simp only [insertIn]
      split
      · next h => subst h; simp only [lookupIn]; split <;> simp_all
      · next h =>
          simp only [lookupIn, ih]
          by_cases ha : a = k'
          · subst ha; simp [Ne.symm h]
          · simp [ha]

theorem lookupIn_eraseIn (k k' : K) (l : List (K × V)) :
    lookupIn k' (eraseIn k l) = if k = k' then none else lookupIn k' l := by
  induction l with
  | nil => simp [eraseIn, lookupIn]
  | cons p r ih =>
      obtain ⟨a, b⟩ := p
      simp only [eraseIn] at ih
      by_cases h : a = k
      · subst h
        simp only [eraseIn, ne_eq, not_true_eq_false, decide_false, Bool.false_eq_true,
          not_false_eq_true, List.filter_cons_of_neg, ih, lookupIn]
        split <;> simp_all
      · simp only [eraseIn, ne_eq, h, not_false_eq_true, decide_true, List.filter_cons_of_pos,
          lookupIn, ih]
        by_cases ha : a = k'
        · subst ha; simp [Ne.symm h]
        · simp [ha]

theorem lookupIn_eq_some_iff {k : K} {v : V} {l : List (K × V)} (h : (l.map Prod.fst).Nodup) :
    lookupIn k l = some v ↔ (k, v) ∈ l := by
  induction l with
  | nil => simp [lookupIn]
  | cons p r ih =>
      obtain ⟨a, b⟩ := p
      have hp : a ∉ r.map Prod.fst ∧ (r.map Prod.fst).Nodup := by simpa using h
      simp only [lookupIn]
      split
      · next e =>
          subst e
          have : (a, v) ∉ r := fun m => hp.1 (List.mem_map_of_mem (f := Prod.fst) m)
          simp [this, eq_comm]
      · next e => simp [ih hp.2, Ne.symm e]

@[simp] theorem get?_empty (k : K) : (empty : OrderedMap K V).get? k = none := rfl

theorem get?_insert (m : OrderedMap K V) (k k' : K) (v : V) :
    (m.insert k v).get? k' = if k = k' then some v else m.get? k' :=
  lookupIn_insertIn k k' v m.toList

theorem get?_erase (m : OrderedMap K V) (k k' : K) :
    (m.erase k).get? k' = if k = k' then none else m.get? k' :=
  lookupIn_eraseIn k k' m.toList

theorem get?_eq_some_iff {m : OrderedMap K V} {k : K} {v : V} :
    m.get? k = some v ↔ (k, v) ∈ m.toList :=
  lookupIn_eq_some_iff m.nodup

/-! ## Comparison -/

/-- Whether both maps bind the same keys to values that `eq` accepts, in any order. -/
def sameBy (eq : V → V → Bool) (m₁ m₂ : OrderedMap K V) : Bool :=
  m₁.size == m₂.size &&
    m₁.toList.all fun p => match m₂.get? p.1 with
      | some v => eq p.2 v
      | none => false

end OrderedMap

end Dataflow
