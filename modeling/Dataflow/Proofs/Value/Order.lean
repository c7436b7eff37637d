import Dataflow.Expression.Eval
import Mathlib.Order.Basic

/-!
# The order of values

Values are partially ordered by information, `undef` lowest and `nac` highest. The meet of two values
is the least value above both, and operations lifted from integers respect the order.
-/

namespace Dataflow.Value

/-! ## The order -/

@[simp] theorem undef_le (v : Value) : undef ≤ v := by cases v <;> rfl

@[simp] theorem le_nac (v : Value) : v ≤ nac := by cases v <;> rfl

@[simp] theorem const_le_const {a b : Int} : const a ≤ const b ↔ a = b := decide_eq_true_iff

@[simp] theorem nac_le {v : Value} : nac ≤ v ↔ v = nac := by
  cases v with
  | undef => exact ⟨nofun, nofun⟩
  | const n => exact ⟨nofun, nofun⟩
  | nac => exact ⟨fun _ => rfl, fun _ => rfl⟩

@[simp] theorem le_undef {v : Value} : v ≤ undef ↔ v = undef := by
  cases v with
  | undef => exact ⟨fun _ => rfl, fun _ => rfl⟩
  | const n => exact ⟨nofun, nofun⟩
  | nac => exact ⟨nofun, nofun⟩

theorem const_le {a : Int} {v : Value} : const a ≤ v ↔ v = const a ∨ v = nac := by
  cases v with
  | undef => simp
  | const b => simp [eq_comm]
  | nac => simp

theorem le_const {a : Int} {v : Value} : v ≤ const a ↔ v = undef ∨ v = const a := by
  cases v with
  | undef => simp
  | const b => simp
  | nac => simp

instance : PartialOrder Value where
  le_refl a := by cases a <;> simp
  le_trans a b c hab hbc := by
    cases a with
    | undef => exact undef_le c
    | const n => rcases const_le.1 hab with rfl | rfl <;> simp_all
    | nac => simp_all
  le_antisymm a b hab hba := by
    cases a with
    | undef => exact (le_undef.1 hba).symm
    | const n =>
        rcases const_le.1 hab with h | h
        · exact h.symm
        · subst h; simp at hba
    | nac => exact (nac_le.1 hab).symm

/-- How often the value was raised. -/
def rank : Value → Nat
  | undef => 0
  | const _ => 1
  | nac => 2

theorem rank_le_two (v : Value) : v.rank ≤ 2 := by cases v <;> simp [rank]

theorem rank_mono {a b : Value} (h : a ≤ b) : a.rank ≤ b.rank := by
  cases a with
  | undef => exact Nat.zero_le _
  | const n => rcases const_le.1 h with rfl | rfl <;> simp [rank]
  | nac =>
      obtain rfl := nac_le.1 h
      exact Nat.le_refl _

theorem le_of_rank_le {a b : Value} (h : a ≤ b) (hr : b.rank ≤ a.rank) : b ≤ a := by
  cases a with
  | undef => cases b with
    | undef => exact le_refl _
    | const n => simp [rank] at hr
    | nac => simp [rank] at hr
  | const n =>
      rcases const_le.1 h with rfl | rfl
      · exact le_refl _
      · simp [rank] at hr
  | nac => exact le_nac b

/-! ## Meets -/

@[simp] theorem meet_undef (v : Value) : v.meet undef = v := by cases v <;> rfl

@[simp] theorem undef_meet (v : Value) : undef.meet v = v := by cases v <;> rfl

@[simp] theorem meet_nac (v : Value) : v.meet nac = nac := by cases v <;> rfl

@[simp] theorem nac_meet (v : Value) : nac.meet v = nac := rfl

theorem le_meet_left (a b : Value) : a ≤ a.meet b := by
  cases a with
  | undef => exact undef_le _
  | const m => cases b with
    | undef => exact le_refl _
    | const n => simp only [meet]; split <;> simp
    | nac => exact le_nac _
  | nac => exact le_refl _

theorem le_meet_right (a b : Value) : b ≤ a.meet b := by
  cases b with
  | undef => exact undef_le _
  | const n => cases a with
    | undef => exact le_refl _
    | const m => simp only [meet]; split <;> simp_all
    | nac => exact le_nac _
  | nac => simp

theorem meet_le {a b c : Value} (ha : a ≤ c) (hb : b ≤ c) : a.meet b ≤ c := by
  cases a with
  | undef => simpa using hb
  | const m => cases b with
    | undef => simpa using ha
    | const n => rcases const_le.1 ha with rfl | rfl <;> simp_all [meet]
    | nac => simpa using hb
  | nac => simpa using ha

theorem meet_le_iff {a b c : Value} : a.meet b ≤ c ↔ a ≤ c ∧ b ≤ c :=
  ⟨fun h => ⟨(le_meet_left a b).trans h, (le_meet_right a b).trans h⟩, fun h => meet_le h.1 h.2⟩

theorem meet_of_le {a b : Value} (h : b ≤ a) : a.meet b = a :=
  le_antisymm (meet_le (le_refl a) h) (le_meet_left a b)

/-- The meet of a list of values; `undef` if there are none. -/
def meetAll (l : List Value) : Value := l.foldl meet undef

theorem meetAll_le_iff {l : List Value} {v : Value} : meetAll l ≤ v ↔ ∀ a ∈ l, a ≤ v := by
  have hfold : ∀ w : Value, l.foldl meet w ≤ v ↔ w ≤ v ∧ ∀ a ∈ l, a ≤ v := by
    induction l with
    | nil => simp
    | cons a l ih =>
        intro w
        rw [List.foldl_cons, ih, meet_le_iff, List.forall_mem_cons, and_assoc]
  rw [meetAll, hfold]
  exact and_iff_right (undef_le v)

theorem le_meetAll {l : List Value} {a : Value} (h : a ∈ l) : a ≤ meetAll l :=
  meetAll_le_iff.1 (le_refl _) a h

theorem meetAll_filter {α : Type} {f : α → Value} {p : α → Bool} {l : List α}
    (h : ∀ a ∈ l, p a = false → f a = undef) :
    meetAll ((l.filter p).map f) = meetAll (l.map f) := by
  apply le_antisymm
  · refine meetAll_le_iff.2 fun v hv => ?_
    obtain ⟨a, ha, rfl⟩ := List.mem_map.1 hv
    exact le_meetAll (List.mem_map_of_mem (List.mem_filter.1 ha).1)
  · refine meetAll_le_iff.2 fun v hv => ?_
    obtain ⟨a, ha, rfl⟩ := List.mem_map.1 hv
    cases hp : p a with
    | true => exact le_meetAll (List.mem_map_of_mem (List.mem_filter.2 ⟨ha, hp⟩))
    | false => rw [h a ha hp]; exact undef_le _

theorem of_meetAll_eq_const {l : List Value} {c : Int} (h : meetAll l = const c) :
    const c ∈ l ∧ ∀ a ∈ l, a = undef ∨ a = const c := by
  have hle : ∀ a ∈ l, a = undef ∨ a = const c := fun a ha => le_const.1 (h ▸ le_meetAll ha)
  refine ⟨?_, hle⟩
  by_contra hc
  have hundef : meetAll l ≤ undef := meetAll_le_iff.2 fun a ha =>
    ((hle a ha).resolve_right fun hac => hc (hac ▸ ha)).le
  rw [h, le_undef] at hundef
  cases hundef

/-! ## Operations on values -/

@[simp] theorem lift₂_nac (f : Int → Int → Value) (v : Value) : lift₂ f v nac = nac := by
  cases v <;> rfl

theorem lift₂_eq_nac {f : Int → Int → Value} (hf : ∀ a b, f a b ≠ nac) {v w : Value} :
    lift₂ f v w = nac ↔ v = nac ∨ w = nac := by
  cases v with
  | undef => cases w <;> simp [lift₂]
  | const a => cases w <;> simp [lift₂, hf]
  | nac => simp [lift₂]

theorem lift₂_eq_undef {f : Int → Int → Value} {v w : Value} (hv : v ≠ nac) (hw : w ≠ nac)
    (h : v = undef ∨ w = undef) : lift₂ f v w = undef := by
  cases v with
  | undef => cases w with
    | undef => rfl
    | const n => rfl
    | nac => exact absurd rfl hw
  | const m => cases w with
    | undef => rfl
    | const n => simp at h
    | nac => exact absurd rfl hw
  | nac => exact absurd rfl hv

theorem of_lift₂_eq_const {f : Int → Int → Value} {v w : Value} {c : Int}
    (h : lift₂ f v w = const c) : ∃ a b, v = const a ∧ w = const b := by
  cases v with
  | undef => cases w <;> cases h
  | const a => cases w with
    | undef => cases h
    | const b => exact ⟨a, b, rfl, rfl⟩
    | nac => cases h
  | nac => cases h

theorem lift₂_mono (f : Int → Int → Value) {a a' b b' : Value} (ha : a ≤ a') (hb : b ≤ b') :
    lift₂ f a b ≤ lift₂ f a' b' := by
  cases a with
  | undef => cases b with
    | undef => exact undef_le _
    | const n => exact undef_le _
    | nac => rw [nac_le.1 hb]; simp
  | const m => cases b with
    | undef => exact undef_le _
    | const n =>
        rcases const_le.1 ha with rfl | rfl
        · rcases const_le.1 hb with rfl | rfl
          · exact le_refl _
          · exact le_nac _
        · exact le_nac _
    | nac => rw [nac_le.1 hb]; simp
  | nac => rw [nac_le.1 ha]; exact le_refl _

end Dataflow.Value
