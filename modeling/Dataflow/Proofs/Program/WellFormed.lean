import Dataflow.Proofs.Program.Declarations
import Mathlib.Data.List.Nodup

/-!
# Well-formed methods

Every method that is read from a form is well-formed, and every well-formed method is read from its
canonical form. So the reader produces the well-formed methods and no others.
-/

namespace Dataflow

/-! ## Well-formed methods -/

/-- Expressions over the variables that program text can express. -/
inductive Exp.WellFormed (vars : List Var) : Exp → Prop
  | lit (n : Int) : WellFormed vars (.lit n)
  | var {x : Var} : x ∈ vars → x.name ≠ "true" → x.name ≠ "false" → WellFormed vars (.var x)
  | bin (op : BinOp) {a b : Exp} : WellFormed vars a → WellFormed vars b → WellFormed vars (.bin op a b)
  | neg {e : Exp} : WellFormed vars e → WellFormed vars (.neg e)
  | cast {t : Ty} {e : Exp} : t.Normal → WellFormed vars e → WellFormed vars (.cast t e)
  | call (method : String) {args : List Exp} :
      (∀ e ∈ args, WellFormed vars e) → WellFormed vars (.call method args)

def Exp.isCall : Exp → Bool
  | call .. => true
  | _ => false

/-- Instructions of the eight kinds over the variables. -/
inductive Instr.WellFormed (vars : List Var) : Instr → Prop
  | assign {x : Var} {e : Exp} :
      x ∈ vars → e.WellFormed vars → e.isCall = false → WellFormed vars (.assign x e)
  | invoke {x : Option Var} {method : String} {args : List Exp} : (∀ y ∈ x, y ∈ vars) →
      (∀ e ∈ args, e.WellFormed vars) → WellFormed vars (.invoke x (.call method args))
  | load {x y : Var} (field : String) :
      x ∈ vars → y ∈ vars → WellFormed vars (.load x (.field y field))
  | branch {e : Exp} (label : String) :
      e.WellFormed vars → e.isComparison = true → WellFormed vars (.branch e label)
  | goto (label : String) : WellFormed vars (.goto label)
  | label (name : String) : WellFormed vars (.label name)
  | ret {e : Option Exp} : (∀ a ∈ e, a.WellFormed vars) → WellFormed vars (.ret e)
  | nop : WellFormed vars .nop

/-- The statements are distinct and each is well-formed over the variables, of which no two have one name;
types are what their names stand for, and label names are distinct. -/
structure Method.WellFormed (m : Method) : Prop where
  nodup : m.body.Nodup
  instr : ∀ s ∈ m.body, s.instr.WellFormed m.vars
  oneName : ∀ x ∈ m.vars, ∀ y ∈ m.vars, x.name = y.name → x = y
  types : ∀ x ∈ m.vars, x.type.Normal
  labelNames : (labels m.body).Nodup

/-! ## Canonical forms -/

mutual
/-- The form of an expression; the empty list for one that program text cannot express. -/
def Exp.form : Exp → Form
  | .lit n => .int n
  | .var x => .symbol x.name
  | .bin op a b => .list [.symbol op.symbol, a.form, b.form]
  | .neg e => .list [.symbol "neg", e.form]
  | .cast t e => .list [.symbol "cast", .symbol t.name, e.form]
  | .call method args => .list (.symbol "invoke" :: .symbol method :: Exp.forms args)
  | .unclassed .. | .field .. => .list []

/-- The forms of a list of expressions. -/
def Exp.forms : List Exp → List Form
  | [] => []
  | e :: es => e.form :: Exp.forms es
end

/-- The form of an instruction; the empty list for one that program text cannot express. -/
def Instr.form : Instr → Form
  | .assign x e | .invoke (some x) e => .list [.symbol "assign", .symbol x.name, e.form]
  | .invoke none e => e.form
  | .load x (.field y field) => .list [.symbol "load", .symbol x.name, .symbol y.name, .symbol field]
  | .branch e l => .list [.symbol "if", e.form, .symbol l]
  | .goto l => .list [.symbol "goto", .symbol l]
  | .label name => .list [.symbol "label", .symbol name]
  | .ret none => .list [.symbol "return"]
  | .ret (some e) => .list [.symbol "return", e.form]
  | .nop => .list [.symbol "nop"]
  | .load .. | .bare | .bareDefinition => .list []

def Var.form (x : Var) : Form := .list [.symbol x.type.name, .symbol x.name]

namespace Method

/-- The variables that are no parameters. -/
def others (m : Method) : List Var := m.vars.drop m.params.length

/-- The form of a method: its name, its parameters, its other variables and its statements. -/
def form (m : Method) : Form :=
  .list [.symbol "method", .symbol m.name, .list (.symbol "params" :: m.params.map Var.form),
    .list (.symbol "vars" :: m.others.map Var.form),
    .list (.symbol "body" :: m.body.map (·.instr.form))]

/-- The same method up to the marks of its statements. -/
structure Same (m m' : Method) : Prop where
  name : m'.name = m.name
  params : m'.params = m.params
  vars : m'.vars = m.vars
  body : m'.body.map (·.instr) = m.body.map (·.instr)

end Method

/-! ## What is read is well-formed -/

namespace Scope

variable {sc : Scope} {vars : List Var}

/-- Every name that the scope knows stands for one of these variables, which has this name. -/
def Within (sc : Scope) (vars : List Var) : Prop :=
  ∀ s x, sc.declared.get? s = some x → x ∈ vars ∧ x.name = s

mutual
theorem Reads.wellFormed {f : Form} {e : Exp} (hvars : sc.Within vars) (h : sc.Reads f e) :
    e.WellFormed vars := by
  match h with
  | .int n => exact .lit n
  | .truth _ => exact .lit _
  | .var ht hx =>
      obtain ⟨hmem, rfl⟩ := hvars _ _ hx
      obtain ⟨htrue, hfalse⟩ := truth?_eq_none_iff.1 ht
      exact .var hmem htrue hfalse
  | .bin _ hf hg => exact .bin _ (hf.wellFormed hvars) (hg.wellFormed hvars)
  | .neg hf => exact .neg (hf.wellFormed hvars)
  | .cast _ hf => exact .cast (Ty.normal_ofName _) (hf.wellFormed hvars)
  | .call _ hfs => exact .call _ (hfs.wellFormed hvars)

theorem ReadsAll.wellFormed {fs : List Form} {es : List Exp} (hvars : sc.Within vars)
    (h : sc.ReadsAll fs es) : ∀ e ∈ es, e.WellFormed vars := by
  match h with
  | .nil => exact nofun
  | .cons hf hfs =>
      intro e he
      rcases List.mem_cons.1 he with rfl | he
      · exact hf.wellFormed hvars
      · exact hfs.wellFormed hvars e he
end

theorem wellFormed_assignment {x : Var} {e : Exp} (hx : x ∈ vars) (he : e.WellFormed vars) :
    (assignment x e).WellFormed vars := by
  cases he with
  | call method hargs => exact .invoke (fun y hy => Option.mem_some.1 hy ▸ hx) hargs
  | lit n => exact .assign hx (.lit n) rfl
  | var hy ht hf => exact .assign hx (.var hy ht hf) rfl
  | bin op ha hb => exact .assign hx (.bin op ha hb) rfl
  | neg ha => exact .assign hx (.neg ha) rfl
  | cast ht ha => exact .assign hx (.cast ht ha) rfl

theorem ReadsInstr.wellFormed {f : Form} {i : Instr} (hvars : sc.Within vars)
    (h : sc.ReadsInstr f i) : i.WellFormed vars := by
  cases h with
  | assign hx he => exact wellFormed_assignment (hvars _ _ hx).1 (he.wellFormed hvars)
  | invoke _ hfs => exact .invoke nofun (hfs.wellFormed hvars)
  | load hx hy _ => exact .load _ (hvars _ _ hx).1 (hvars _ _ hy).1
  | branch he hcomparison _ => exact .branch _ (he.wellFormed hvars) hcomparison
  | goto _ => exact .goto _
  | label _ => exact .label _
  | ret => exact .ret nofun
  | retValue he => exact .ret fun a ha => Option.mem_some.1 ha ▸ he.wellFormed hvars
  | nop => exact .nop

end Scope

/-! ## Canonical forms are read -/

theorem BinOp.ofName?_symbol (op : BinOp) : ofName? op.symbol = some op := by
  cases op <;> rfl

namespace Scope

variable {sc : Scope} {vars : List Var}

/-- The scope knows these variables by their names. -/
def Knows (sc : Scope) (vars : List Var) : Prop := ∀ x ∈ vars, sc.declared.get? x.name = some x

theorem ReadsAll.of_forall : {es : List Exp} → (∀ e ∈ es, sc.Reads e.form e) →
    sc.ReadsAll (Exp.forms es) es
  | [], _ => by
      rw [Exp.forms]
      exact .nil
  | e :: es, h => by
      rw [Exp.forms]
      exact .cons (h e List.mem_cons_self) (.of_forall fun a ha => h a (List.mem_cons_of_mem e ha))

theorem Knows.reads (hk : sc.Knows vars) {e : Exp} (h : e.WellFormed vars) : sc.Reads e.form e := by
  induction h with
  | lit n =>
      rw [Exp.form]
      exact .int n
  | var hx ht hf =>
      rw [Exp.form]
      exact .var (truth?_eq_none_iff.2 ⟨ht, hf⟩) (hk _ hx)
  | bin op _ _ iha ihb =>
      rw [Exp.form]
      exact .bin op.ofName?_symbol iha ihb
  | neg _ ih =>
      rw [Exp.form]
      exact .neg ih
  | @cast t e ht _ ih =>
      have hcast : sc.Reads (.list [.symbol "cast", .symbol t.name, e.form])
          (.cast (.ofName t.name) e) := .cast (.symbol t.name) ih
      rw [Exp.form]
      rwa [ht] at hcast
  | call method _ ih =>
      rw [Exp.form]
      exact .call (.symbol method) (.of_forall ih)

theorem Knows.readsInstr (hk : sc.Knows vars) {i : Instr} (h : i.WellFormed vars) :
    sc.ReadsInstr i.form i := by
  cases h with
  | @assign x e hx he hcall =>
      have hassign : assignment x e = .assign x e := by
        cases he with
        | call => cases hcall
        | _ => rfl
      have hread := ReadsInstr.assign (hk x hx) (hk.reads he)
      rwa [hassign] at hread
  | @invoke x method args hx hargs =>
      cases x with
      | none =>
          rw [Instr.form, Exp.form]
          exact .invoke (.symbol method) (.of_forall fun e he => hk.reads (hargs e he))
      | some y => exact .assign (hk y (hx y rfl)) (hk.reads (.call method hargs))
  | load field hx hy => exact .load (hk _ hx) (hk _ hy) (.symbol field)
  | branch label he hcomparison => exact .branch (hk.reads he) hcomparison (.symbol label)
  | goto label => exact .goto (.symbol label)
  | label name => exact .label (.symbol name)
  | @ret e he =>
      cases e with
      | none => exact .ret
      | some e => exact .retValue (hk.reads (he e rfl))
  | nop => exact .nop

end Scope

/-! ## Variables of a method -/

theorem Var.declares_form {x : Var} (h : x.type.Normal) : x.form.Declares x := by
  have hx : x.form.Declares ⟨x.name, .ofName x.type.name⟩ := .mk (.symbol x.type.name) (.symbol x.name)
  rwa [h] at hx

namespace Method

variable {m : Method} {xs : List Var}

theorem vars_eq (m : Method) :
    m.vars = m.params ++ (distinct m.locals).filter (· ∉ m.params) := foldl_add_eq m.locals m.params

theorem others_eq (m : Method) : m.others = (distinct m.locals).filter (· ∉ m.params) := by
  rw [others, vars_eq, List.drop_left]

theorem vars_eq_append (m : Method) : m.vars = m.params ++ m.others := by rw [others_eq, vars_eq]

/-- The parameters were declared, and then these variables. -/
def DeclaredWith (m : Method) (xs : List Var) : Prop :=
  m.locals = distinct m.params ++ (distinct xs).filter (· ∉ distinct m.params)

theorem DeclaredWith.vars_eq (h : m.DeclaredWith xs) :
    m.vars = m.params ++ (distinct xs).filter (· ∉ m.params) := by
  rw [DeclaredWith] at h
  have hnodup : m.locals.Nodup := by
    rw [h, List.nodup_append]
    refine ⟨nodup_distinct _, (nodup_distinct _).filter _, ?_⟩
    intro x hx y hy hxy
    rw [List.mem_filter, decide_eq_true_eq] at hy
    exact hy.2 (hxy ▸ hx)
  rw [m.vars_eq, distinct_of_nodup hnodup, h, List.filter_append, filter_distinct_eq_nil fun _ hx => hx,
    List.nil_append, List.filter_filter]
  simp [mem_distinct]

theorem DeclaredWith.mem_locals (h : m.DeclaredWith xs) {x : Var} : x ∈ m.locals ↔ x ∈ m.vars := by
  rw [h.vars_eq, h]
  simp [mem_distinct]

/-- Distinct statements have their positions as indexes. -/
theorem index_of_nodup (h : m.body.Nodup) {i : Nat} {s : Stmt} (hs : m.body[i]? = some s) :
    m.index s = i := by
  obtain ⟨hi, rfl⟩ := List.getElem?_eq_some_iff.1 hs
  have hfind : m.body.reverse.findIdx? (· = m.body[i]) = some (m.body.length - 1 - i) := by
    rw [List.findIdx?_eq_some_iff_getElem]
    refine ⟨by rw [List.length_reverse]; omega, ?_, ?_⟩
    · rw [decide_eq_true_eq, List.getElem_reverse]
      congr 1
      omega
    · intro j hj
      rw [decide_eq_true_eq, List.getElem_reverse, h.getElem_inj_iff]
      omega
  rw [index, hfind]
  simp only
  omega

/-! ## Reading a method -/

theorem declared_empty {name : String} {fs : List Form} {sc : Scope}
    (h : Scope.declareAll ⟨name, .empty⟩ fs = .ok (sc, xs)) :
    sc.Keyed ∧ List.Forall₂ Form.Declares fs xs ∧ sc.vars = distinct xs := by
  have hk : Scope.Keyed ⟨name, .empty⟩ := nofun
  obtain ⟨hk', hforms, hvars⟩ := hk.declareAll h
  refine ⟨hk', hforms, ?_⟩
  rw [hvars]
  simp [Scope.vars, OrderedMap.empty]

/-- A method that is read from a form has the variables that the sections declare, and the statements that
the body stands for in the scope of these variables. -/
theorem exists_scope_of_ofForm {f : Form} (h : ofForm f = .ok m) :
    ∃ (sc : Scope) (xs : List Var), List.Forall₂ Form.Declares (f.inSection "params") m.params ∧
      List.Forall₂ Form.Declares (f.inSection "vars") xs ∧ m.DeclaredWith xs ∧
      sc.Keyed ∧ (∀ x, x ∈ sc.vars ↔ x ∈ m.vars) ∧
      m.body.map (·.mark) = List.range' 0 m.body.length ∧
      List.Forall₂ (fun g s => sc.ReadsInstr g s.instr) (f.inSection "body") m.body ∧
      (labels m.body).Nodup := by
  obtain ⟨hd, rest, s, sc, sc', xs, rfl, hname, hs, hps, hxs, hlocals, hbody, hlabels⟩ :=
    ofForm_eq_ok.1 h
  obtain ⟨hk, hparams, hvars⟩ := declared_empty hps
  obtain ⟨hk', hothers, hvars'⟩ := hk.declareAll hxs
  rw [hvars, ← hlocals] at hvars'
  have hdeclared : m.DeclaredWith xs := hvars'
  have hmem : ∀ x, x ∈ sc'.vars ↔ x ∈ m.vars := fun x => hlocals ▸ hdeclared.mem_locals
  obtain ⟨hmarks, hreads⟩ := Scope.body_eq_ok.1 hbody
  have hforms : ∀ tag, s.forms tag = (Form.list (.symbol "method" :: hd :: rest)).inSection tag :=
    fun tag => (Sections.forms_foldlM hs tag).trans (List.nil_append _)
  rw [hforms] at hparams hothers hreads
  exact ⟨sc', xs, hparams, hothers, hdeclared, hk', hmem, hmarks, hreads, hlabels⟩

/-- What is read from a form is well-formed, its statements have their positions as indexes, and its
variables are those that the sections declare: the parameters in order, then each further variable once
where it is first declared. -/
theorem wellFormed_of_ofForm {f : Form} (h : ofForm f = .ok m) :
    m.WellFormed ∧ (∀ (i : Nat) (s : Stmt), m.body[i]? = some s → m.index s = i) ∧
      ∃ xs, List.Forall₂ Form.Declares (f.inSection "params") m.params ∧
        List.Forall₂ Form.Declares (f.inSection "vars") xs ∧
        m.vars = m.params ++ (distinct xs).filter (· ∉ m.params) := by
  obtain ⟨sc, xs, hparams, hothers, hdeclared, hk, hmem, hmarks, hreads, hlabels⟩ :=
    exists_scope_of_ofForm h
  have hwithin : sc.Within m.vars := fun t x hx => (hk.get?_eq_some.1 hx).imp_left (hmem x).1
  have hnodup : m.body.Nodup := List.Nodup.of_map _ (hmarks ▸ List.nodup_range' 1)
  refine ⟨⟨hnodup, ?_, ?_, ?_, hlabels⟩, fun i s => index_of_nodup hnodup, xs, hparams, hothers,
    hdeclared.vars_eq⟩
  · intro s hs
    obtain ⟨f, -, hf⟩ := exists_of_forall₂ hreads hs
    exact hf.wellFormed hwithin
  · exact fun x hx y hy => hk.eq_of_name ((hmem x).2 hx) ((hmem y).2 hy)
  · intro x hx
    rw [hdeclared.vars_eq, List.mem_append, List.mem_filter, mem_distinct] at hx
    rcases hx with hx | hx
    · obtain ⟨f, -, hf⟩ := exists_of_forall₂ hparams hx
      exact hf.normal
    · obtain ⟨f, -, hf⟩ := exists_of_forall₂ hothers hx.1
      exact hf.normal

/-! ## Reading a canonical form -/

theorem forall₂_declares_form (h : ∀ x ∈ xs, x.type.Normal) :
    List.Forall₂ Form.Declares (xs.map Var.form) xs := by
  rw [List.forall₂_map_left_iff, List.forall₂_same]
  exact fun x hx => Var.declares_form (h x hx)

/-- The statements marked from `i` on. -/
def remark (i : Nat) : List Stmt → List Stmt
  | [] => []
  | s :: ss => ⟨i, s.instr⟩ :: remark (i + 1) ss

theorem remark_instr (i : Nat) (ss : List Stmt) :
    (remark i ss).map (·.instr) = ss.map (·.instr) := by
  induction ss generalizing i with
  | nil => rfl
  | cons s ss ih => rw [remark, List.map_cons, ih, List.map_cons]

theorem body_remark {sc : Scope} {vars : List Var} (hk : sc.Knows vars) {ss : List Stmt}
    (h : ∀ s ∈ ss, s.instr.WellFormed vars) (i : Nat) :
    sc.body i (ss.map (·.instr.form)) = .ok (remark i ss) := by
  induction ss generalizing i with
  | nil => rfl
  | cons s ss ih =>
      have hs := (hk.readsInstr (h s List.mem_cons_self)).instr_eq
      have hss := ih (fun r hr => h r (List.mem_cons_of_mem s hr)) (i + 1)
      simp only [List.map_cons, Scope.body, hs, hss, remark]
      rfl

theorem labels_of_instr {ss ss' : List Stmt} (h : ss.map (·.instr) = ss'.map (·.instr)) :
    labels ss = labels ss' := by
  have hlabels : ∀ ss, labels ss = (ss.map (·.instr)).filterMap Instr.labelName? := fun ss => by
    rw [List.filterMap_map]; rfl
  rw [hlabels, hlabels, h]

theorem nodup_others (m : Method) : m.others.Nodup := by
  rw [others_eq]
  exact (nodup_distinct _).filter _

/-- The variables of a well-formed method can be declared, the parameters first. -/
theorem WellFormed.exists_scope (h : m.WellFormed) : ∃ sc sc',
    Scope.declareAll ⟨m.name, .empty⟩ (m.params.map Var.form) = .ok (sc, m.params) ∧
      sc.declareAll (m.others.map Var.form) = .ok (sc', m.others) ∧ sc'.Keyed ∧
      sc'.vars = distinct m.params ++
        (distinct m.others).filter (· ∉ distinct m.params) := by
  have hk : Scope.Keyed ⟨m.name, .empty⟩ := nofun
  have hnormal := h.types
  have hone := h.oneName
  simp only [vars_eq_append, List.mem_append] at hnormal hone
  obtain ⟨sc, hps⟩ := Scope.exists_declareAll hk
    (forall₂_declares_form fun x hx => hnormal x (.inl hx))
    fun x hx y hy => hone x (.inl (by simpa [Scope.vars, OrderedMap.empty] using hx)) y
      (.inl (by simpa [Scope.vars, OrderedMap.empty] using hy))
  obtain ⟨hk₁, -, hvars₁⟩ := declared_empty hps
  obtain ⟨sc', hxs⟩ := Scope.exists_declareAll hk₁
    (forall₂_declares_form fun x hx => hnormal x (.inr hx))
    fun x hx y hy => hone x (by simpa [hvars₁, mem_distinct] using hx) y
      (by simpa [hvars₁, mem_distinct] using hy)
  obtain ⟨hk₂, -, hvars₂⟩ := hk₁.declareAll hxs
  exact ⟨sc, sc', hps, hxs, hk₂, hvars₁ ▸ hvars₂⟩

/-- Declaring the other variables after the parameters gives the variables of the method again. -/
theorem DeclaredWith.vars_eq_vars {m' : Method} (h : m'.DeclaredWith m.others)
    (hparams : m'.params = m.params) : m'.vars = m.vars := by
  rw [h.vars_eq, vars_eq_append, hparams, distinct_of_nodup m.nodup_others, List.filter_eq_self.2]
  intro x hx
  rw [others_eq, List.mem_filter] at hx
  exact hx.2

theorem exists_ofForm_form (h : m.WellFormed) : ∃ m', ofForm m.form = .ok m' ∧ m.Same m' := by
  obtain ⟨sc, sc', hps, hxs, hk, hvars⟩ := h.exists_scope
  let m' : Method := ⟨m.name, m.params, sc'.vars, remark 0 m.body⟩
  have hdeclared : m'.DeclaredWith m.others := hvars
  have hm' : m'.vars = m.vars := hdeclared.vars_eq_vars rfl
  have hknows : sc'.Knows m.vars := fun x hx =>
    hk.get?_eq_some.2 ⟨hdeclared.mem_locals.2 (hm' ▸ hx), rfl⟩
  have hlabels : (labels (remark 0 m.body)).Nodup := by
    rw [labels_of_instr (remark_instr 0 m.body)]
    exact h.labelNames
  let s : Sections := ⟨[("params", m.params.map Var.form), ("vars", m.others.map Var.form),
    ("body", m.body.map (·.instr.form))], by simp⟩
  refine ⟨m', ofForm_eq_ok.2 ⟨_, _, s, sc, sc', m.others, rfl, .symbol m.name, ?_, hps, hxs, rfl, ?_,
    hlabels⟩, rfl, rfl, hm', remark_instr 0 m.body⟩
  · rfl
  · exact body_remark hknows h.instr 0

/-- The reader produces the well-formed methods and no others. What it makes of a form is well-formed, has
positions as indexes, and has as variables those that the sections declare: the parameters in order, then
each further variable once where it is first declared. And the canonical form of a well-formed method is
read as the same method. -/
theorem ofForm_exact :
    (∀ f m, ofForm f = .ok m →
      m.WellFormed ∧ (∀ (i : Nat) (s : Stmt), m.body[i]? = some s → m.index s = i) ∧
        ∃ xs, List.Forall₂ Form.Declares (f.inSection "params") m.params ∧
          List.Forall₂ Form.Declares (f.inSection "vars") xs ∧
          m.vars = m.params ++ (distinct xs).filter (· ∉ m.params)) ∧
      ∀ m : Method, m.WellFormed → ∃ m', ofForm m.form = .ok m' ∧ m.Same m' :=
  ⟨fun _ _ => wellFormed_of_ofForm, fun _ => exists_ofForm_form⟩

/-- Statements of all eight kinds, with a parameter that is declared twice and one named like a literal. -/
def sampler : Method where
  name := "sampler"
  params := [⟨"p", .prim .int⟩, ⟨"true", .ref "java.lang.Object"⟩, ⟨"p", .prim .int⟩]
  locals := [⟨"p", .prim .int⟩, ⟨"true", .ref "java.lang.Object"⟩, ⟨"x", .prim .short⟩]
  body :=
    let p : Var := ⟨"p", .prim .int⟩
    let o : Var := ⟨"true", .ref "java.lang.Object"⟩
    let x : Var := ⟨"x", .prim .short⟩
    [⟨0, .label "top"⟩, ⟨1, .load x (.field o "size")⟩,
      ⟨2, .assign x (.bin .ushr (.neg (.var x)) (.cast (.prim .short) (.var p)))⟩,
      ⟨3, .invoke (some x) (.call "next" [.var p, .call "id" [.lit (-1)]])⟩, ⟨4, .invoke none (.call "log" [])⟩,
      ⟨5, .branch (.bin .le (.var x) (.lit 0)) "top"⟩, ⟨6, .goto "end"⟩, ⟨7, .nop⟩, ⟨8, .label "end"⟩,
      ⟨9, .ret (some (.var x))⟩]

theorem ofForm_exact_sampler : ofForm sampler.form = .ok sampler ∧ sampler.WellFormed ∧
    ∃ m', ofForm sampler.form = .ok m' ∧ sampler.Same m' := by
  have hoption : (ofForm sampler.form).toOption = some sampler := by decide +kernel
  have hread : ofForm sampler.form = .ok sampler := by
    cases h : ofForm sampler.form with
    | ok m =>
        rw [h] at hoption
        rw [Option.some.inj hoption]
    | error e =>
        rw [h] at hoption
        cases hoption
  obtain ⟨hwell, -⟩ := ofForm_exact.1 sampler.form sampler hread
  exact ⟨hread, hwell, ofForm_exact.2 sampler hwell⟩

end Method

end Dataflow
