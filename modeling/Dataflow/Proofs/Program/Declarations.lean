import Dataflow.Proofs.OrderedMap
import Dataflow.Proofs.Program.Grammar

/-!
# Declarations

What the sections of a method declare. The scope after them has every declared variable once, in the order
of the first declarations, and no two variables of one name; declarations that would break this are the
only ones that are rejected.
-/

namespace Dataflow

/-! ## Types by name -/

/-- The type that its name stands for. -/
def Ty.Normal (t : Ty) : Prop := Ty.ofName t.name = t

theorem Ty.name_ofName (s : String) : (Ty.ofName s).name = s := by
  unfold ofName
  split
  · next p hp => exact eq_of_beq (List.find?_some (p := fun p : Prim => p.name == s) hp)
  · rfl

theorem Ty.normal_ofName (s : String) : (Ty.ofName s).Normal := by rw [Normal, name_ofName]

/-! ## One declaration -/

/-- The form is a type and a name. -/
inductive Form.Declares : Form → Var → Prop
  | mk {t x : Form} {type name : String} : t.Names type → x.Names name →
      Declares (.list [t, x]) ⟨name, .ofName type⟩

theorem Form.Declares.normal {f : Form} {x : Var} (h : f.Declares x) : x.type.Normal := by
  cases h with
  | mk _ _ => exact Ty.normal_ofName _

namespace Scope

variable {sc sc' : Scope} {f : Form} {fs : List Form} {s : String} {x y : Var} {xs : List Var}

/-- The declared variables in order. -/
def vars (sc : Scope) : List Var := sc.declared.toList.map Prod.snd

/-- Every variable is declared under its own name. -/
def Keyed (sc : Scope) : Prop := ∀ p ∈ sc.declared.toList, p.1 = p.2.name

theorem Keyed.get?_eq_some (h : sc.Keyed) :
    sc.declared.get? s = some x ↔ x ∈ sc.vars ∧ x.name = s := by
  rw [OrderedMap.get?_eq_some_iff, vars, List.mem_map]
  constructor
  · exact fun hx => ⟨⟨(s, x), hx, rfl⟩, (h (s, x) hx).symm⟩
  · rintro ⟨⟨p, hp, rfl⟩, hname⟩
    rwa [← hname, ← h p hp]

theorem Keyed.eq_of_name (h : sc.Keyed) (hx : x ∈ sc.vars) (hy : y ∈ sc.vars) (hname : x.name = y.name) :
    x = y :=
  Option.some.inj ((h.get?_eq_some.2 ⟨hx, hname⟩).symm.trans (h.get?_eq_some.2 ⟨hy, rfl⟩))

theorem Keyed.get?_eq_none (h : sc.Keyed) :
    sc.declared.get? s = none ↔ ∀ x ∈ sc.vars, x.name ≠ s := by
  rw [Option.eq_none_iff_forall_ne_some]
  simp only [ne_eq, h.get?_eq_some, not_and]

theorem declare_eq_ok : sc.declare f = .ok (sc', x) ↔ f.Declares x ∧
    (sc.declared.get? x.name = some x ∧ sc' = sc ∨ sc.declared.get? x.name = none ∧
      sc' = { sc with declared := sc.declared.insert x.name x }) := by
  constructor
  · intro h
    simp only [declare, bind_eq_ok, Form.elements_eq_ok] at h
    obtain ⟨items, ⟨rfl, -⟩, h⟩ := h
    split at h
    · next t n =>
        simp only [bind_eq_ok, Form.asName_eq_ok] at h
        obtain ⟨name, hname, type, htype, h⟩ := h
        split at h
        · next old hold =>
            split at h
            · next heq =>
                cases h
                subst heq
                exact ⟨.mk htype hname, .inl ⟨hold, rfl⟩⟩
            · cases h
        · next hnone =>
            cases h
            exact ⟨.mk htype hname, .inr ⟨hnone, rfl⟩⟩
    · cases h
  · rintro ⟨hf, hsc⟩
    cases hf with
    | mk htype hname =>
        rcases hsc with ⟨hold, rfl⟩ | ⟨hnone, rfl⟩
        · simp [declare, Form.elements, Form.asName_eq_ok.2 htype, Form.asName_eq_ok.2 hname, hold, pure,
            Except.pure]
        · simp [declare, Form.elements, Form.asName_eq_ok.2 htype, Form.asName_eq_ok.2 hname, hnone, pure,
            Except.pure]

/-- A keyed scope with one more variable, unless it was there. -/
theorem Keyed.declare (hk : sc.Keyed) (h : sc.declare f = .ok (sc', x)) :
    sc'.Keyed ∧ sc'.vars = if x ∈ sc.vars then sc.vars else sc.vars ++ [x] := by
  obtain ⟨-, ⟨hold, rfl⟩ | ⟨hnone, rfl⟩⟩ := declare_eq_ok.1 h
  · exact ⟨hk, (if_pos (hk.get?_eq_some.1 hold).1).symm⟩
  · have hnew : x ∉ sc.vars := fun hx => hk.get?_eq_none.1 hnone x hx rfl
    have hlist := OrderedMap.toList_insert_of_get?_eq_none (v := x) hnone
    refine ⟨fun p hp => ?_, by rw [if_neg hnew, vars, hlist, List.map_append]; rfl⟩
    rw [hlist, List.mem_append, List.mem_singleton] at hp
    rcases hp with hp | rfl
    · exact hk p hp
    · rfl

theorem exists_declare (hk : sc.Keyed) (hf : f.Declares x)
    (hone : ∀ y ∈ sc.vars, y.name = x.name → y = x) : ∃ sc', sc.declare f = .ok (sc', x) := by
  cases hget : sc.declared.get? x.name with
  | some y =>
      obtain ⟨hy, hname⟩ := hk.get?_eq_some.1 hget
      rw [hone y hy hname] at hget
      exact ⟨_, declare_eq_ok.2 ⟨hf, .inl ⟨hget, rfl⟩⟩⟩
  | none => exact ⟨_, declare_eq_ok.2 ⟨hf, .inr ⟨hget, rfl⟩⟩⟩

/-! ## Many declarations -/

theorem declareAll_cons : sc.declareAll (f :: fs) = .ok (sc', xs) ↔
    ∃ sc₁ y ys, sc.declare f = .ok (sc₁, y) ∧ sc₁.declareAll fs = .ok (sc', ys) ∧ xs = y :: ys := by
  simp only [declareAll, bind_eq_ok, pure, Except.pure, Except.ok.injEq, Prod.exists, Prod.mk.injEq]
  constructor
  · rintro ⟨sc₁, y, hy, _, ys, hys, rfl, rfl⟩
    exact ⟨sc₁, y, ys, hy, hys, rfl⟩
  · rintro ⟨sc₁, y, ys, hy, hys, rfl⟩
    exact ⟨sc₁, y, hy, sc', ys, hys, rfl, rfl⟩

/-- The forms declare the variables, and the scope after them has all that are new, once each. -/
theorem Keyed.declareAll (hk : sc.Keyed) (h : sc.declareAll fs = .ok (sc', xs)) :
    sc'.Keyed ∧ List.Forall₂ Form.Declares fs xs ∧
      sc'.vars = sc.vars ++ (distinct xs).filter (· ∉ sc.vars) := by
  rw [← foldl_add_eq]
  induction fs generalizing sc xs with
  | nil =>
      cases h
      exact ⟨hk, .nil, rfl⟩
  | cons f fs ih =>
      obtain ⟨sc₁, y, ys, hy, hys, rfl⟩ := declareAll_cons.1 h
      obtain ⟨hk₁, hvars⟩ := hk.declare hy
      obtain ⟨hk', hforms, hvars'⟩ := ih hk₁ hys
      exact ⟨hk', .cons (declare_eq_ok.1 hy).1 hforms, by rw [hvars', hvars, List.foldl_cons]⟩

theorem exists_declareAll (hk : sc.Keyed) (hf : List.Forall₂ Form.Declares fs xs)
    (hone : ∀ x ∈ sc.vars ++ xs, ∀ y ∈ sc.vars ++ xs, x.name = y.name → x = y) :
    ∃ sc', sc.declareAll fs = .ok (sc', xs) := by
  induction hf generalizing sc with
  | nil => exact ⟨sc, rfl⟩
  | @cons f x fs xs hx _ ih =>
      obtain ⟨sc₁, hsc₁⟩ := exists_declare hk hx fun y hy hname =>
        hone y (List.mem_append_left _ hy) x (List.mem_append_right _ List.mem_cons_self) hname
      obtain ⟨hk₁, hvars⟩ := hk.declare hsc₁
      have hsub : ∀ y ∈ sc₁.vars ++ xs, y ∈ sc.vars ++ x :: xs := by
        intro y hy
        rw [hvars] at hy
        split at hy <;> simp only [List.mem_append, List.mem_cons, List.not_mem_nil, or_false] at hy ⊢
        · exact hy.imp_right .inr
        · rcases hy with (hy | hy) | hy
          · exact .inl hy
          · exact .inr (.inl hy)
          · exact .inr (.inr hy)
      obtain ⟨sc', hsc'⟩ := ih hk₁ fun y hy z hz => hone y (hsub y hy) z (hsub z hz)
      exact ⟨sc', declareAll_cons.2 ⟨sc₁, x, xs, hsc₁, hsc', rfl⟩⟩

end Scope

/-! ## Sections -/

/-- What follows the tag in a section with this tag. -/
def Form.underTag (tag : String) : Form → List Form
  | .list (.symbol t :: fs) => if t = tag then fs else []
  | _ => []

/-- The forms in the sections of a method with this tag. -/
def Form.inSection (tag : String) : Form → List Form
  | .list (_ :: _ :: sections) => sections.flatMap (Form.underTag tag)
  | _ => []

namespace Sections

variable {method tag : String} {s s' : Sections} {f : Form} {fs : List Form}

theorem add_eq_ok : add method s f = .ok s' ↔ ∃ tag args, f = .list (.symbol tag :: args) ∧ tag ∈ tags ∧
    s.contains tag = false ∧ s' = OrderedMap.insert s tag args := by
  simp only [add, bind_eq_ok, Form.elements_eq_ok, Prod.exists, Form.headed_eq_ok]
  constructor
  · rintro ⟨items, ⟨rfl, -⟩, tag, args, rfl, h⟩
    split at h
    · cases h
    · next htag =>
        split at h
        · cases h
        · next hnew =>
            cases h
            exact ⟨tag, args, rfl, not_not.1 htag, by simpa using hnew, rfl⟩
  · rintro ⟨tag, args, rfl, htag, hnew, rfl⟩
    refine ⟨_, ⟨rfl, by simp⟩, tag, args, rfl, ?_⟩
    simp [htag, hnew, pure, Except.pure]

theorem forms_add (h : add method s f = .ok s') (tag : String) :
    s'.forms tag = s.forms tag ++ f.underTag tag := by
  obtain ⟨t, args, rfl, -, hnew, rfl⟩ := add_eq_ok.1 h
  rw [forms, OrderedMap.get?_insert, Form.underTag]
  split
  · next ht =>
      subst ht
      have hnone : OrderedMap.get? s t = none := by simpa [OrderedMap.contains] using hnew
      simp [forms, hnone]
  · rw [List.append_nil, forms]

theorem forms_foldlM (h : fs.foldlM (add method) s = .ok s') (tag : String) :
    s'.forms tag = s.forms tag ++ fs.flatMap (Form.underTag tag) := by
  induction fs generalizing s with
  | nil =>
      cases h
      simp
  | cons f fs ih =>
      rw [List.foldlM_cons] at h
      obtain ⟨s₁, hs₁, h⟩ := bind_eq_ok.1 h
      rw [ih h, forms_add hs₁, List.append_assoc, List.flatMap_cons]

end Sections

/-! ## Labels -/

/-- The names of the labels in order. -/
def labels (ss : List Stmt) : List String := ss.filterMap (·.instr.labelName?)

theorem duplicateLabel?_eq_none {seen : List String} {ss : List Stmt} :
    duplicateLabel? seen ss = none ↔ (labels ss).Nodup ∧ ∀ l ∈ labels ss, l ∉ seen := by
  induction ss generalizing seen with
  | nil => simp [duplicateLabel?, labels]
  | cons s ss ih =>
      rw [duplicateLabel?, labels, List.filterMap_cons, ← labels]
      cases hl : s.instr.labelName? with
      | none => exact ih
      | some l =>
          simp only [List.nodup_cons, List.mem_cons, forall_eq_or_imp]
          by_cases hseen : l ∈ seen
          · simp [hseen]
          · simp only [hseen, if_false, ih, List.mem_cons, not_or, not_false_eq_true, true_and]
            constructor
            · rintro ⟨hnodup, hnew⟩
              exact ⟨⟨fun hl => (hnew l hl).1 rfl, hnodup⟩, fun k hk => (hnew k hk).2⟩
            · rintro ⟨⟨hl, hnodup⟩, hnew⟩
              exact ⟨hnodup, fun k hk => ⟨fun hkl => hl (hkl ▸ hk), hnew k hk⟩⟩

/-! ## Methods -/

/-- A method as read from its sections. -/
theorem Method.ofForm_eq_ok {f : Form} {m : Method} : Method.ofForm f = .ok m ↔
    ∃ h rest s sc sc' xs, f = .list (.symbol "method" :: h :: rest) ∧ h.Names m.name ∧
      rest.foldlM (Sections.add m.name) (OrderedMap.empty : Sections) = .ok s ∧
      Scope.declareAll ⟨m.name, .empty⟩ (s.forms "params") = .ok (sc, m.params) ∧
      sc.declareAll (s.forms "vars") = .ok (sc', xs) ∧ m.locals = sc'.vars ∧
      sc'.body 0 (s.forms "body") = .ok m.body ∧ (labels m.body).Nodup := by
  have hlabels : ∀ ss, duplicateLabel? [] ss = none ↔ (labels ss).Nodup := fun ss => by
    simp [duplicateLabel?_eq_none]
  constructor
  · intro h
    simp only [ofForm, bind_eq_ok, Form.elements_eq_ok, Prod.exists, Form.headed_eq_ok] at h
    obtain ⟨items, ⟨rfl, -⟩, tag, args, rfl, h⟩ := h
    split at h
    · cases h
    · next htag =>
        split at h
        · cases h
        · next hd rest =>
            simp only [bind_eq_ok, Form.asName_eq_ok, Prod.exists] at h
            obtain ⟨name, hname, s, hs, sc, ps, hps, sc', xs, hxs, body, hbody, h⟩ := h
            split at h
            · cases h
            · next hnone =>
                cases h
                rw [not_not] at htag
                exact ⟨hd, rest, s, sc, sc', xs, by rw [htag], hname, hs, hps, hxs, rfl, hbody,
                  (hlabels body).1 hnone⟩
  · rintro ⟨hd, rest, s, sc, sc', xs, rfl, hname, hs, hps, hxs, hlocals, hbody, hnodup⟩
    obtain ⟨name, params, locals, body⟩ := m
    simp only at hname hs hps hlocals hbody hnodup
    have helements : (Form.list (.symbol "method" :: hd :: rest)).elements 2 =
        .ok (.symbol "method" :: hd :: rest) := Form.elements_eq_ok.2 ⟨rfl, by simp⟩
    have hheaded : Form.headed (.symbol "method" :: hd :: rest) = .ok ("method", hd :: rest) :=
      Form.headed_eq_ok.2 rfl
    simp [ofForm, helements, hheaded, Form.asName_eq_ok.2 hname, hs, hps, hxs, hbody,
      (hlabels body).2 hnodup, hlocals, Scope.vars, pure, Except.pure]

end Dataflow
