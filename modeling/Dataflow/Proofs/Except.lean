import Mathlib.Data.List.Forall2

/-!
# Outcomes that may be errors

When a computation that may fail gives a value, and when it fails.
-/

namespace Dataflow

variable {ε α β : Type} {x : Except ε α}

@[simp] theorem ok_bind (a : α) (f : α → Except ε β) : (Except.ok a >>= f) = f a := rfl

theorem bind_eq_ok {f : α → Except ε β} {b : β} : x >>= f = .ok b ↔ ∃ a, x = .ok a ∧ f a = .ok b := by
  cases x with
  | ok a => exact ⟨fun h => ⟨a, rfl, h⟩, fun ⟨_, ha, h⟩ => by cases ha; exact h⟩
  | error e => exact ⟨nofun, nofun⟩

theorem bind_eq_error {f : α → Except ε β} {e : ε} :
    x >>= f = .error e ↔ x = .error e ∨ ∃ a, x = .ok a ∧ f a = .error e := by
  cases x with
  | ok a => simp [bind, Except.bind]
  | error e' => simp [bind, Except.bind]

/-- What is computed from the value shows that there is one. -/
theorem exists_ok_of_toOption {f : α → β} {b : β} (h : x.toOption.map f = some b) :
    ∃ a, x = .ok a ∧ f a = b := by
  cases x with
  | ok a => exact ⟨a, rfl, Option.some.inj h⟩
  | error e => cases h

theorem exists_of_mem_mapM {f : α → Except ε β} {l : List α} {bs : List β} {b : β}
    (h : l.mapM f = .ok bs) (hb : b ∈ bs) : ∃ a ∈ l, f a = .ok b := by
  induction l generalizing bs with
  | nil =>
      cases h
      cases hb
  | cons a l ih =>
      rw [List.mapM_cons] at h
      obtain ⟨b', ha, h⟩ := bind_eq_ok.1 h
      obtain ⟨bs', hl, h⟩ := bind_eq_ok.1 h
      cases h
      cases hb with
      | head => exact ⟨a, List.mem_cons_self, ha⟩
      | tail _ hb =>
          obtain ⟨c, hc, hcb⟩ := ih hl hb
          exact ⟨c, List.mem_cons_of_mem a hc, hcb⟩

/-- Either every element has a value, or there is a first one with an error. -/
theorem forall_ok_or_first_error (f : α → Except ε β) (l : List α) :
    (∃ bs, List.Forall₂ (fun a b => f a = .ok b) l bs) ∨
      ∃ l₁ a l₂ e, l = l₁ ++ a :: l₂ ∧ (∀ b ∈ l₁, ∃ c, f b = .ok c) ∧ f a = .error e := by
  induction l with
  | nil => exact .inl ⟨[], .nil⟩
  | cons a l ih =>
      cases ha : f a with
      | error e => exact .inr ⟨[], a, l, e, rfl, nofun, ha⟩
      | ok b =>
          cases ih with
          | inl h =>
              obtain ⟨bs, hbs⟩ := h
              exact .inl ⟨b :: bs, .cons ha hbs⟩
          | inr h =>
              obtain ⟨l₁, a', l₂, e, rfl, hl₁, he⟩ := h
              exact .inr ⟨a :: l₁, a', l₂, e, rfl, List.forall_mem_cons.2 ⟨⟨b, ha⟩, hl₁⟩, he⟩

end Dataflow
