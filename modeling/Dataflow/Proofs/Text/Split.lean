import Dataflow.Text.Blank
import Dataflow.Text.Split
import Mathlib.Data.List.DropRight

/-!
# Cutting, splitting and trimming

What is cut or split at a character has no such character left, so joining the parts and splitting again
gives the same parts. What is trimmed stays as it is when it is trimmed again.
-/

namespace Dataflow.Text

variable {sep c : Char} {a b cs : List Char} {p : Char → Bool}

/-! ## Cutting -/

theorem cut_eq_some : cut sep cs = (a, some b) ↔ cs = a ++ sep :: b ∧ sep ∉ a := by
  induction cs generalizing a with
  | nil => simp [cut]
  | cons c cs ih =>
      simp only [cut]
      split
      · next h =>
          subst h
          constructor
          · rintro ⟨⟩
            simp
          · rintro ⟨h, hsep⟩
            cases a with
            | nil => simpa using h
            | cons d a => simp_all
      · next h =>
          cases a with
          | nil => simp [h]
          | cons d a =>
              have hrest := @ih a
              cases hcut : cut sep cs with
              | mk before after =>
                  rw [hcut] at hrest
                  simp only [Prod.mk.injEq, List.cons.injEq, List.cons_append, List.mem_cons, not_or]
                  rw [Prod.mk.injEq] at hrest
                  constructor
                  · rintro ⟨⟨rfl, rfl⟩, rfl⟩
                    obtain ⟨hcs, hsep⟩ := hrest.1 ⟨rfl, rfl⟩
                    exact ⟨⟨rfl, hcs⟩, Ne.symm h, hsep⟩
                  · rintro ⟨⟨rfl, hcs⟩, -, hsep⟩
                    obtain ⟨hbefore, hafter⟩ := hrest.2 ⟨hcs, hsep⟩
                    exact ⟨⟨rfl, hbefore⟩, hafter⟩

theorem cut_of_notMem (h : sep ∉ cs) : cut sep cs = (cs, none) := by
  induction cs with
  | nil => rfl
  | cons c cs ih =>
      rw [List.mem_cons, not_or] at h
      simp [cut, Ne.symm h.1, ih h.2]

/-! ## Splitting -/

theorem pieces_eq_splitOn (sep : Char) (cs : List Char) : pieces sep cs = cs.splitOn sep := by
  induction cs with
  | nil => rfl
  | cons c cs ih =>
      rw [List.splitOn, List.splitOnP_cons_eq_if_modifyHead, ← List.splitOn, ← ih, pieces]
      by_cases h : c = sep
      · simp [h]
      · simp only [h, beq_iff_eq, if_false]
        cases hp : pieces sep cs with
        | nil => exact absurd (ih ▸ hp) (List.splitOnP_ne_nil _ _)
        | cons p ps => rfl

theorem notMem_of_mem_pieces (h : a ∈ pieces sep cs) : sep ∉ a := by
  induction cs generalizing a with
  | nil =>
      simp only [pieces, List.mem_singleton] at h
      simp [h]
  | cons c cs ih =>
      simp only [pieces] at h
      split at h
      · cases h with
        | head => simp
        | tail _ h => exact ih h
      · next hc =>
          split at h
          · next hnil =>
              rw [List.mem_singleton.1 h]
              simp [Ne.symm hc]
          · next q qs hq =>
              cases h with
              | head => simp [Ne.symm hc, ih (hq ▸ List.mem_cons_self)]
              | tail _ h => exact ih (hq ▸ List.mem_cons_of_mem q h)

theorem pieces_intercalate {ps : List (List Char)} (h : ∀ a ∈ ps, sep ∉ a) (hne : ps ≠ []) :
    pieces sep ([sep].intercalate ps) = ps := by
  rw [pieces_eq_splitOn, List.splitOn_intercalate sep h hne]

/-! ## Trimming -/

/-- The class has neither the first nor the last character. -/
structure Trimmed (p : Char → Bool) (cs : List Char) : Prop where
  head : ∀ c ∈ cs.head?, p c = false
  last : ∀ c ∈ cs.getLast?, p c = false

theorem Trimmed.trimChars_eq (h : Trimmed p cs) : trimChars p cs = cs := by
  have hleft : cs.dropWhile p = cs := by
    cases cs with
    | nil => rfl
    | cons c cs => simp [h.head c rfl]
  have hright : cs.rdropWhile p = cs := by
    rw [List.rdropWhile_eq_self_iff]
    intro hne
    simp [h.last (cs.getLast hne) (List.getLast?_eq_some_getLast hne)]
  rw [trimChars, hleft]
  exact hright

theorem trimmed_trimChars (p : Char → Bool) (cs : List Char) : Trimmed p (trimChars p cs) where
  head c hc := by
    have hprefix : trimChars p cs <+: cs.dropWhile p := List.rdropWhile_prefix p _
    have hhead := List.head?_dropWhile_not p cs
    have hc' : (cs.dropWhile p).head? = some c := by
      obtain ⟨r, hr⟩ := hprefix
      rw [← hr, List.head?_append, hc]
      rfl
    rw [hc'] at hhead
    exact hhead
  last c hc := by
    have hne : trimChars p cs ≠ [] := by
      rintro hnil
      rw [hnil] at hc
      cases hc
    have hlast := List.rdropWhile_last_not p (cs.dropWhile p) hne
    rw [List.getLast?_eq_some_getLast hne] at hc
    cases hc
    exact Bool.eq_false_iff.2 hlast

theorem Trimmed.of_forall (h : ∀ c ∈ cs, p c = false) : Trimmed p cs where
  head c hc := h c (List.mem_of_mem_head? hc)
  last c hc := h c (List.mem_of_mem_getLast? hc)

theorem Trimmed.of_any (h : cs.any p = false) : Trimmed p cs :=
  .of_forall fun c hc => Bool.eq_false_iff.2 (List.any_eq_false.1 h c hc)

theorem mem_of_mem_trimChars (h : c ∈ trimChars p cs) : c ∈ cs :=
  (List.dropWhile_suffix p).subset ((List.rdropWhile_prefix p _).subset h)

theorem Trimmed.append_cons (ha : Trimmed p a) (hsep : p sep = false) (hb : Trimmed p b) :
    Trimmed p (a ++ sep :: b) where
  head c hc := by
    cases a with
    | nil =>
        cases hc
        exact hsep
    | cons d a => exact ha.head c hc
  last c hc := by
    rw [List.getLast?_append, List.getLast?_cons] at hc
    cases hlast : b.getLast? with
    | none =>
        rw [hlast] at hc
        cases hc
        exact hsep
    | some d =>
        rw [hlast] at hc
        cases hc
        exact hb.last d hlast

theorem Trimmed.intercalate {ps : List (List Char)} (hps : ∀ a ∈ ps, Trimmed p a) (hsep : p sep = false) :
    Trimmed p ([sep].intercalate ps) := by
  induction ps with
  | nil => exact .of_forall nofun
  | cons a ps ih =>
      have ha : Trimmed p a := hps a List.mem_cons_self
      have hrest : Trimmed p ([sep].intercalate ps) := ih fun b hb => hps b (List.mem_cons_of_mem a hb)
      cases ps with
      | nil => simpa [List.intercalate] using ha
      | cons b ps =>
          rw [List.intercalate_cons_cons, List.append_assoc]
          exact ha.append_cons hsep hrest

/-! ## Blanks -/

theorem isBlank_of_graphic (hmin : 0x20 < c.toNat) (hmax : c.toNat < 0x7f) : isBlank c = false := by
  have hspace : c ≠ ' ' := by
    rintro rfl
    exact absurd hmin (by decide)
  simp [isBlank, isAsciiBlank, isWideBlank, hspace]
  omega

theorem Trimmed.of_graphic (h : ∀ c ∈ cs, 0x20 < c.toNat ∧ c.toNat < 0x7f) : Trimmed isBlank cs :=
  .of_forall fun c hc => isBlank_of_graphic (h c hc).1 (h c hc).2

theorem Trimmed.ascii (h : Trimmed isBlank cs) : Trimmed isAsciiBlank cs := by
  have hblank : ∀ c, isBlank c = false → isAsciiBlank c = false := fun c hc => by
    simp only [isBlank, Bool.or_eq_false_iff] at hc
    exact hc.1.1
  exact ⟨fun c hc => hblank c (h.head c hc), fun c hc => hblank c (h.last c hc)⟩

end Dataflow.Text
