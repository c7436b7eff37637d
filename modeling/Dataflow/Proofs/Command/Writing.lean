import Dataflow.Command.FileTree

/-!
# Writing a file

A file that is written has its content, the directories above it are there, and everything else is as
before. If the file cannot be opened, only directories above it are new.
-/

namespace Dataflow.FileTree

variable {t t' : FileTree} {p q : Path} {e : Entry} {content : List UInt8} {fault? : Option Fault} {f : Fault}

theorem entry?_insert : entry? (OrderedMap.insert t p e) q =
    if q = [] then some .directory else if p = q then some e else t.entry? q := by
  unfold entry?
  split
  · rfl
  · rw [OrderedMap.get?_insert]

/-- Nothing changes at the path, or it was free and is now one of the directories on the way. -/
def Keeps (t t' : FileTree) (way q : Path) : Prop :=
  t'.entry? q = t.entry? q ∨ t.entry? q = none ∧ t'.entry? q = some .directory ∧ q <+: way

theorem Keeps.refl (t : FileTree) (way q : Path) : t.Keeps t way q := .inl rfl

theorem Keeps.widen {way way' : Path} (h : t.Keeps t' way q) (hway : way <+: way') : t.Keeps t' way' q :=
  h.imp_right fun ⟨hnone, hdirectory, hq⟩ => ⟨hnone, hdirectory, hq.trans hway⟩

theorem Keeps.insert_of_ne {way : Path} (h : t.Keeps t' way q) (hq : q ≠ p) :
    t.Keeps (OrderedMap.insert t' p e) way q := by
  unfold Keeps at h ⊢
  rw [entry?_insert, if_neg (Ne.symm hq)]
  split
  · next hroot => exact .inl (by rw [hroot]; rfl)
  · exact h

theorem Keeps.insert_directory (h : t.Keeps t' p q) (hfree : t.entry? p = none) :
    t.Keeps (OrderedMap.insert t' p .directory) p q := by
  by_cases hq : q = p
  · subst hq
    refine .inr ⟨hfree, ?_, List.prefix_rfl⟩
    rw [entry?_insert, if_pos rfl, ite_self]
  · exact h.insert_of_ne hq

/-- A directory that cannot be made may leave some of those above it. -/
theorem keeps_makeDirectory (t : FileTree) (names : List String) (q : Path) :
    t.Keeps (t.makeDirectory names).1 names.reverse q := by
  induction names with
  | nil => exact .refl t _ q
  | cons n above ih =>
      have hway : above.reverse <+: (n :: above).reverse := by
        rw [List.reverse_cons]
        exact List.prefix_append _ _
      simp only [makeDirectory]
      split
      · exact .refl t _ q
      · exact .refl t _ q
      · next hfree =>
          have hkeeps := ih.widen hway
          split
          · next t' habove =>
              rw [habove] at hkeeps
              split
              · exact hkeeps
              · exact hkeeps.insert_directory hfree
          · next t' habove => rwa [habove] at hkeeps
          · next t' f habove => rwa [habove] at hkeeps

theorem keeps_of_makeDirectory (h : t.makeDirectory p.dropLast.reverse = (t', fault?)) (q : Path) :
    t.Keeps t' p.dropLast q := by
  have hkeeps := t.keeps_makeDirectory p.dropLast.reverse q
  rwa [h, List.reverse_reverse] at hkeeps

/-- All that writing can do: it makes directories above the file, and then there is a fault or the file. -/
theorem write_cases (t : FileTree) (p : Path) (content : List UInt8) :
    ∃ t', (∀ q, t.Keeps t' p.dropLast q) ∧
      ((∃ f, t.write p content = (t', some f)) ∨
        p ≠ [] ∧ t.write p content = (OrderedMap.insert t' p (.file content), none)) := by
  unfold write
  split
  · exact ⟨t, .refl t _, .inl ⟨_, rfl⟩⟩
  · split
    · next t' f hmake => exact ⟨t', keeps_of_makeDirectory hmake, .inl ⟨f, rfl⟩⟩
    · next t' hmake =>
        refine ⟨t', keeps_of_makeDirectory hmake, ?_⟩
        split
        · exact .inl ⟨_, rfl⟩
        · split
          · exact .inl ⟨_, rfl⟩
          · next hfile => exact .inr ⟨fun hroot => hfile (by rw [hroot]; rfl), rfl⟩

/-- The file has the content, and nothing else changes but for directories above it. -/
structure Writes (t : FileTree) (p : Path) (content : List UInt8) (t' : FileTree) : Prop where
  file : t'.entry? p = some (.file content)
  other : ∀ q, q ≠ p → t.Keeps t' p q

theorem writes_of_write (h : t.write p content = (t', none)) : t.Writes p content t' := by
  obtain ⟨t₁, hkeeps, ⟨f, hwrite⟩ | ⟨hroot, hwrite⟩⟩ := t.write_cases p content
  · cases hwrite.symm.trans h
  · cases hwrite.symm.trans h
    refine ⟨by rw [entry?_insert, if_neg hroot, if_pos rfl], fun q hq => ?_⟩
    exact ((hkeeps q).widen (List.dropLast_prefix p)).insert_of_ne hq

/-- A file that cannot be opened leaves nothing but directories above it. -/
theorem keeps_of_write (h : t.write p content = (t', some f)) (q : Path) : t.Keeps t' p.dropLast q := by
  obtain ⟨t₁, hkeeps, ⟨f', hwrite⟩ | ⟨-, hwrite⟩⟩ := t.write_cases p content
  · cases hwrite.symm.trans h
    exact hkeeps q
  · cases hwrite.symm.trans h

/-- The directory stays, although the name of the file in it is too long. -/
example :
    let file : Path := ["a", String.ofList (List.replicate 256 'x')]
    (write .empty file []).2 = some .nameTooLong ∧ entry? (write .empty file []).1 ["a"] = some .directory := by
  decide +kernel

end Dataflow.FileTree
