import Dataflow.Program
import Dataflow.Proofs.Method.Edges
import Mathlib.Data.List.Forall2

/-!
# The grammar of statements

Which expression and which instruction a form stands for in a scope, as relations with one rule for each
way to write one. The reader accepts exactly what the rules derive.
-/

namespace Dataflow

/-! ## Parts of forms -/

/-- A name is written as a symbol or as a string. -/
inductive Form.Names : Form → String → Prop
  | symbol (s : String) : Names (.symbol s) s
  | string (s : String) : Names (.string s) s

namespace Form

variable {f : Form} {fs args : List Form} {s : String} {n : Nat}

theorem symbolName_eq_ok : f.symbolName = .ok s ↔ f = .symbol s := by
  cases f with
  | symbol s' => simp [symbolName]
  | _ => simp [symbolName]

theorem asName_eq_ok : f.asName = .ok s ↔ f.Names s := by
  constructor
  · intro h
    cases f with
    | symbol s' => cases h; exact .symbol s
    | string s' => cases h; exact .string s
    | _ => cases h
  · intro h
    cases h with
    | symbol => rfl
    | string => rfl

theorem elements_eq_ok : f.elements n = .ok fs ↔ f = .list fs ∧ n ≤ fs.length := by
  cases f with
  | list gs =>
      simp only [elements, list.injEq]
      by_cases h : gs.length < n
      · simp only [if_pos h, reduceCtorEq, false_iff]
        exact fun ⟨hg, hn⟩ => absurd h (Nat.not_lt.2 (hg ▸ hn))
      · simp only [if_neg h, Except.ok.injEq, iff_self_and]
        exact fun hg => hg ▸ Nat.not_lt.1 h
  | _ => simp [elements]

theorem headed_eq_ok : headed fs = .ok (s, args) ↔ fs = .symbol s :: args := by
  cases fs with
  | nil => simp [headed]
  | cons h gs =>
      simp only [headed, bind_eq_ok, symbolName_eq_ok, pure, Except.pure, Except.ok.injEq,
        Prod.mk.injEq, List.cons.injEq]
      constructor
      · rintro ⟨s', rfl, rfl, rfl⟩
        exact ⟨rfl, rfl⟩
      · rintro ⟨rfl, rfl⟩
        exact ⟨s, rfl, rfl, rfl⟩

end Form

namespace Scope

variable {sc : Scope} {f : Form} {fs : List Form} {s : String} {x : Var} {e : Exp} {es : List Exp}

theorem lookup_eq_ok : sc.lookup f = .ok x ↔ ∃ s, f = .symbol s ∧ sc.declared.get? s = some x := by
  simp only [lookup, bind_eq_ok, Form.symbolName_eq_ok]
  refine exists_congr fun s => and_congr_right fun _ => ?_
  split
  · next y hy => simp [hy, pure, Except.pure]
  · next hy => simp [hy]

theorem truth?_eq_none_iff : truth? s = none ↔ s ≠ "true" ∧ s ≠ "false" := by
  unfold truth?
  split <;> simp_all

/-! ## Expressions -/

mutual
/-- The form stands for the expression. -/
inductive Reads (sc : Scope) : Form → Exp → Prop
  | int (n : Int) : Reads sc (.int n) (.lit n)
  | truth {s : String} {n : Int} : truth? s = some n → Reads sc (.symbol s) (.lit n)
  | var {s : String} {x : Var} :
      truth? s = none → sc.declared.get? s = some x → Reads sc (.symbol s) (.var x)
  | bin {s : String} {op : BinOp} {f g : Form} {a b : Exp} : BinOp.ofName? s = some op →
      Reads sc f a → Reads sc g b → Reads sc (.list [.symbol s, f, g]) (.bin op a b)
  | neg {f : Form} {e : Exp} : Reads sc f e → Reads sc (.list [.symbol "neg", f]) (.neg e)
  | cast {t f : Form} {name : String} {e : Exp} : t.Names name → Reads sc f e →
      Reads sc (.list [.symbol "cast", t, f]) (.cast (.ofName name) e)
  | call {h : Form} {name : String} {fs : List Form} {es : List Exp} : h.Names name →
      ReadsAll sc fs es → Reads sc (.list (.symbol "invoke" :: h :: fs)) (.call name es)

/-- The forms stand for the expressions, one by one. -/
inductive ReadsAll (sc : Scope) : List Form → List Exp → Prop
  | nil : ReadsAll sc [] []
  | cons {f : Form} {fs : List Form} {e : Exp} {es : List Exp} :
      Reads sc f e → ReadsAll sc fs es → ReadsAll sc (f :: fs) (e :: es)
end

mutual
theorem Reads.of_exp : {f : Form} → {e : Exp} → sc.exp f = .ok e → sc.Reads f e
  | .int n, _, h => by
      simp only [exp, Except.ok.injEq] at h
      exact h ▸ .int n
  | .symbol s, e, h => by
      simp only [exp] at h
      cases ht : truth? s with
      | some n =>
          simp only [ht, Except.ok.injEq] at h
          exact h ▸ .truth ht
      | none =>
          simp only [ht, bind_eq_ok, lookup_eq_ok] at h
          obtain ⟨x, ⟨_, hs, hx⟩, h⟩ := h
          cases hs
          cases h
          exact .var ht hx
  | .list [], _, h => by simp [exp] at h
  | .list (t :: args), e, h => by
      unfold exp at h
      simp only [bind_eq_ok, Form.symbolName_eq_ok] at h
      obtain ⟨tag, rfl, h⟩ := h
      split at h
      · next op hop =>
          split at h
          · next f g =>
              simp only [bind_eq_ok] at h
              obtain ⟨a, ha, b, hb, h⟩ := h
              cases h
              exact .bin hop (Reads.of_exp ha) (Reads.of_exp hb)
          · cases h
      · split at h
        · split at h
          · next f =>
              obtain ⟨a, ha, h⟩ := bind_eq_ok.1 h
              cases h
              exact .neg (Reads.of_exp ha)
          · cases h
        · split at h
          · next t f =>
              simp only [bind_eq_ok, Form.asName_eq_ok] at h
              obtain ⟨name, hname, a, ha, h⟩ := h
              cases h
              exact .cast hname (Reads.of_exp ha)
          · cases h
        · split at h
          · next m fs =>
              simp only [bind_eq_ok, Form.asName_eq_ok] at h
              obtain ⟨es, hes, name, hname, h⟩ := h
              cases h
              exact .call hname (ReadsAll.of_exps hes)
          · cases h
        · cases h
  | .brackets _, _, h | .quoted _, _, h | .string _, _, h | .float _, _, h => by simp [exp] at h

theorem ReadsAll.of_exps : {fs : List Form} → {es : List Exp} → sc.exps fs = .ok es →
    sc.ReadsAll fs es
  | [], _, h => by
      simp only [exps, Except.ok.injEq] at h
      exact h ▸ .nil
  | f :: fs, es, h => by
      simp only [exps, bind_eq_ok] at h
      obtain ⟨a, ha, as, has, h⟩ := h
      cases h
      exact .cons (Reads.of_exp ha) (ReadsAll.of_exps has)
end

mutual
theorem Reads.exp_eq : {f : Form} → {e : Exp} → sc.Reads f e → sc.exp f = .ok e
  | _, _, .int n => by simp [exp]
  | _, _, .truth ht => by simp [exp, ht]
  | _, _, .var ht hx => by simp [exp, ht, lookup_eq_ok.2 ⟨_, rfl, hx⟩]
  | _, _, .bin hop hf hg => by simp [exp, Form.symbolName, hop, hf.exp_eq, hg.exp_eq]
  | _, _, .neg hf => by
      have hop : BinOp.ofName? "neg" = none := by decide
      simp [exp, Form.symbolName, hop, hf.exp_eq]
  | _, _, .cast ht hf => by
      have hop : BinOp.ofName? "cast" = none := by decide
      simp [exp, Form.symbolName, hop, Form.asName_eq_ok.2 ht, hf.exp_eq]
  | _, _, .call hh hfs => by
      have hop : BinOp.ofName? "invoke" = none := by decide
      unfold exp
      simp [Form.symbolName, hop, Form.asName_eq_ok.2 hh, hfs.exps_eq]

theorem ReadsAll.exps_eq : {fs : List Form} → {es : List Exp} → sc.ReadsAll fs es →
    sc.exps fs = .ok es
  | _, _, .nil => by simp [exps]
  | _, _, .cons hf hfs => by simp [exps, hf.exp_eq, hfs.exps_eq]
end

theorem exp_eq_ok : sc.exp f = .ok e ↔ sc.Reads f e := ⟨Reads.of_exp, Reads.exp_eq⟩

theorem exps_eq_ok : sc.exps fs = .ok es ↔ sc.ReadsAll fs es := ⟨ReadsAll.of_exps, ReadsAll.exps_eq⟩

/-! ## Instructions -/

/-- The form stands for the instruction. -/
inductive ReadsInstr (sc : Scope) : Form → Instr → Prop
  | assign {s : String} {f : Form} {x : Var} {e : Exp} : sc.declared.get? s = some x → sc.Reads f e →
      ReadsInstr sc (.list [.symbol "assign", .symbol s, f]) (assignment x e)
  | invoke {h : Form} {name : String} {fs : List Form} {es : List Exp} : h.Names name →
      sc.ReadsAll fs es →
      ReadsInstr sc (.list (.symbol "invoke" :: h :: fs)) (.invoke none (.call name es))
  | load {s r : String} {h : Form} {name : String} {x y : Var} : sc.declared.get? s = some x →
      sc.declared.get? r = some y → h.Names name →
      ReadsInstr sc (.list [.symbol "load", .symbol s, .symbol r, h]) (.load x (.field y name))
  | branch {f h : Form} {name : String} {e : Exp} : sc.Reads f e → e.isComparison = true →
      h.Names name → ReadsInstr sc (.list [.symbol "if", f, h]) (.branch e name)
  | goto {h : Form} {name : String} : h.Names name →
      ReadsInstr sc (.list [.symbol "goto", h]) (.goto name)
  | label {h : Form} {name : String} : h.Names name →
      ReadsInstr sc (.list [.symbol "label", h]) (.label name)
  | ret : ReadsInstr sc (.list [.symbol "return"]) (.ret none)
  | retValue {f : Form} {e : Exp} : sc.Reads f e →
      ReadsInstr sc (.list [.symbol "return", f]) (.ret (some e))
  | nop : ReadsInstr sc (.list [.symbol "nop"]) .nop

variable {i : Instr}

theorem ReadsInstr.of_tagged {tag : String} {args : List Form}
    (h : sc.tagged f (.symbol tag :: args) tag args = .ok i) :
    sc.ReadsInstr (.list (.symbol tag :: args)) i := by
  unfold tagged at h
  split at h
  · simp only [bind_eq_ok, lookup_eq_ok, exp_eq_ok] at h
    obtain ⟨x, ⟨s, rfl, hx⟩, e, he, h⟩ := h
    cases h
    exact .assign hx he
  · cases h
  · simp only [bind_eq_ok, exps_eq_ok, Form.asName_eq_ok] at h
    obtain ⟨es, hes, name, hname, h⟩ := h
    cases h
    exact .invoke hname hes
  · cases h
  · simp only [bind_eq_ok, lookup_eq_ok, Form.asName_eq_ok] at h
    obtain ⟨x, ⟨s, rfl, hx⟩, y, ⟨r, rfl, hy⟩, name, hname, h⟩ := h
    cases h
    exact .load hx hy hname
  · cases h
  · obtain ⟨e, he, h⟩ := bind_eq_ok.1 h
    split at h
    · next hcomparison =>
        simp only [bind_eq_ok, Form.asName_eq_ok] at h
        obtain ⟨name, hname, h⟩ := h
        cases h
        exact .branch (exp_eq_ok.1 he) hcomparison hname
    · cases h
  · cases h
  · simp only [bind_eq_ok, Form.asName_eq_ok] at h
    obtain ⟨name, hname, h⟩ := h
    cases h
    exact .goto hname
  · cases h
  · simp only [bind_eq_ok, Form.asName_eq_ok] at h
    obtain ⟨name, hname, h⟩ := h
    cases h
    exact .label hname
  · cases h
  · cases h
    exact .ret
  · simp only [bind_eq_ok, exp_eq_ok] at h
    obtain ⟨e, he, h⟩ := h
    cases h
    exact .retValue he
  · cases h
  · cases h
    exact .nop
  · cases h
  · cases h

theorem instr_list (sc : Scope) (tag : String) (args : List Form) :
    sc.instr (.list (.symbol tag :: args)) =
      sc.tagged (.list (.symbol tag :: args)) (.symbol tag :: args) tag args := by
  simp [instr, Form.elements, Form.headed, Form.symbolName]

theorem ReadsInstr.instr_eq (h : sc.ReadsInstr f i) : sc.instr f = .ok i := by
  cases h with
  | assign hx he =>
      rw [instr_list, tagged, lookup_eq_ok.2 ⟨_, rfl, hx⟩, he.exp_eq]
      rfl
  | invoke hh hfs =>
      rw [instr_list, tagged, hfs.exps_eq, Form.asName_eq_ok.2 hh]
      rfl
  | load hx hy hh =>
      rw [instr_list, tagged, lookup_eq_ok.2 ⟨_, rfl, hx⟩, lookup_eq_ok.2 ⟨_, rfl, hy⟩,
        Form.asName_eq_ok.2 hh]
      rfl
  | branch he hcomparison hh =>
      rw [instr_list, tagged, he.exp_eq, ok_bind, if_pos hcomparison, Form.asName_eq_ok.2 hh]
      rfl
  | goto hh | label hh =>
      rw [instr_list, tagged, Form.asName_eq_ok.2 hh]
      rfl
  | retValue he =>
      rw [instr_list, tagged, he.exp_eq]
      rfl
  | ret | nop => rfl

theorem instr_eq_ok : sc.instr f = .ok i ↔ sc.ReadsInstr f i := by
  refine ⟨fun h => ?_, ReadsInstr.instr_eq⟩
  simp only [instr, bind_eq_ok, Form.elements_eq_ok, Prod.exists, Form.headed_eq_ok] at h
  obtain ⟨items, ⟨rfl, -⟩, tag, args, rfl, h⟩ := h
  exact .of_tagged h

/-- The body of a list of forms has their instructions, marked one after the other. -/
theorem body_eq_ok {n : Nat} {ss : List Stmt} : sc.body n fs = .ok ss ↔
    ss.map (·.mark) = List.range' n ss.length ∧ List.Forall₂ (fun f s => sc.ReadsInstr f s.instr) fs ss := by
  induction fs generalizing n ss with
  | nil =>
      simp only [body, Except.ok.injEq, List.forall₂_nil_left_iff]
      constructor
      · rintro rfl
        exact ⟨rfl, rfl⟩
      · exact fun h => h.2.symm
  | cons f fs ih =>
      simp only [body, bind_eq_ok, ih, instr_eq_ok]
      constructor
      · rintro ⟨i, hi, ss, ⟨hmarks, hreads⟩, h⟩
        cases h
        exact ⟨by simp [List.range'_succ, hmarks], .cons hi hreads⟩
      · rintro ⟨hmarks, hreads⟩
        cases hreads with
        | @cons _ s _ ss hs hss =>
            simp only [List.map_cons, List.length_cons, List.range'_succ, List.cons.injEq] at hmarks
            exact ⟨s.instr, hs, ss, ⟨hmarks.2, hss⟩, by rw [← hmarks.1]; rfl⟩

end Scope

theorem exists_of_forall₂ {α β : Type} {R : α → β → Prop} {l : List α} {k : List β}
    (h : List.Forall₂ R l k) {b : β} (hb : b ∈ k) : ∃ a ∈ l, R a b := by
  induction h with
  | nil => cases hb
  | @cons a _ l _ hab _ ih =>
      rcases List.mem_cons.1 hb with rfl | hb
      · exact ⟨a, List.mem_cons_self, hab⟩
      · obtain ⟨a', ha', hab'⟩ := ih hb
        exact ⟨a', List.mem_cons_of_mem a ha', hab'⟩

end Dataflow
