import Dataflow.Proofs.Numeral.Decimal
import Dataflow.Proofs.Program.WellFormed
import Dataflow.Proofs.Propagation.Contents
import Dataflow.Proofs.Run

/-!
# Faithful reports

The document of a fact has the bindings of the fact by name. It loses none of them because no two
variables of a method have one name, and it confuses none because every value has its own text.
-/

namespace Dataflow

variable {env env' : Env} {vars : List Var} {ms ns : List (String × Json)}

/-! ## Texts of values -/

theorem Value.text_injective : Function.Injective text := by
  have hhead : ∀ n, (text (const n)).toList.head? = some '#' := fun n => by
    simp [text, String.toList_append]
  intro v w h
  have hvw : v.text.toList.head? = w.text.toList.head? := by rw [h]
  cases v with
  | undef =>
      cases w with
      | undef => rfl
      | const n => exact absurd (hvw.trans (hhead n)) (by decide)
      | nac => exact absurd hvw (by decide)
  | const m =>
      cases w with
      | undef => exact absurd (hvw.symm.trans (hhead m)) (by decide)
      | const n => exact congrArg const (Numeral.toString_injective ((String.append_right_inj "#").1 h))
      | nac => exact absurd (hvw.symm.trans (hhead m)) (by decide)
  | nac =>
      cases w with
      | undef => exact absurd hvw (by decide)
      | const n => exact absurd (hvw.trans (hhead n)) (by decide)
      | nac => rfl

/-! ## Bindings by name -/

namespace Env

/-- No two variables that have a value have one name. -/
def OneName (env : Env) : Prop :=
  ∀ x y, env.get x ≠ .undef → env.get y ≠ .undef → x.name = y.name → x = y

theorem mem_sorted {p : Var × Value} : p ∈ env.sorted ↔ env.bindings.get? p.1 = some p.2 :=
  (List.mergeSort_perm _ _).mem_iff.trans OrderedMap.get?_eq_some_iff.symm

theorem names_le_sorted (env : Env) : env.sorted.Pairwise fun p q => p.1.name ≤ q.1.name := by
  have hle : ∀ p q : Var × Value, (!(q.1.name < p.1.name : Bool)) = true ↔ p.1.name ≤ q.1.name := fun p q => by
    rw [Bool.not_eq_true', decide_eq_false_iff_not, String.not_lt]
  have h : env.sorted.Pairwise fun p q => (!(q.1.name < p.1.name : Bool)) = true := by
    refine List.pairwise_mergeSort (fun p q r hpq hqr => ?_) (fun p q => ?_) _
    · exact (hle p r).2 (String.le_trans ((hle p q).1 hpq) ((hle q r).1 hqr))
    · rw [Bool.or_eq_true, hle, hle]
      exact String.le_total _ _
  exact h.imp fun hpq => (hle _ _).1 hpq

theorem OneName.nodup_names (h : env.OneName) : (env.sorted.map (·.1.name)).Nodup := by
  have hkeys : (env.sorted.map Prod.fst).Nodup :=
    ((List.mergeSort_perm _ _).map Prod.fst).nodup_iff.2 env.bindings.nodup
  have hdefined : ∀ x ∈ env.sorted.map Prod.fst, env.get x ≠ .undef := by
    intro x hx
    obtain ⟨p, hp, rfl⟩ := List.mem_map.1 hx
    obtain ⟨hget, hne⟩ := get?_bindings.1 (mem_sorted.1 hp)
    rwa [hget]
  have hnames := hkeys.map_on fun x hx y hy => h x y (hdefined x hx) (hdefined y hy)
  rwa [List.map_map] at hnames

theorem OneName.toList_texts (h : env.OneName) :
    env.texts.toList = env.sorted.map fun p => (p.1.name, p.2.text) := by
  refine OrderedMap.toList_ofList ?_
  rw [List.map_map]
  exact h.nodup_names

end Env

/-! ## The document of a fact -/

namespace Report

/-- The members are the bindings of these variables that are followed: the text of the value under the
name, in strictly increasing order of names, and nothing else. -/
structure Shows (vars : List Var) (env : Env) (ms : List (String × Json)) : Prop where
  increasing : ms.Pairwise fun p q => p.1 < q.1
  shown : ∀ x ∈ vars, x.tracked = true → ∀ v, (x.name, Json.string v.text) ∈ ms ↔ env.bindings.get? x = some v
  only : ∀ p ∈ ms, ∃ x ∈ vars, x.tracked = true ∧ ∃ v : Value, p = (x.name, Json.string v.text)

/-- The variables that are followed and have different names. -/
structure Covers (vars : List Var) (env : Env) : Prop where
  oneName : ∀ x ∈ vars, ∀ y ∈ vars, x.name = y.name → x = y
  within : ∀ x, env.get x ≠ .undef → x ∈ vars ∧ x.tracked = true

theorem Covers.shows (h : Covers vars env) :
    ∃ ms, factJson (some env) = .object ms ∧ Shows vars env ms := by
  have hone : env.OneName := fun x y hx hy => h.oneName x (h.within x hx).1 y (h.within y hy).1
  have hms : env.texts.toList.map (fun p => (p.1, Json.string p.2)) =
      env.sorted.map fun p => (p.1.name, Json.string p.2.text) := by
    rw [hone.toList_texts, List.map_map]
    rfl
  refine ⟨env.sorted.map fun p => (p.1.name, .string p.2.text), congrArg Json.object hms, ?_, ?_, ?_⟩
  · rw [List.pairwise_map]
    have hne : env.sorted.Pairwise fun p q => p.1.name ≠ q.1.name := List.pairwise_map.1 hone.nodup_names
    exact env.names_le_sorted.imp₂ (fun p q => Std.lt_of_le_of_ne) hne
  · intro x hx htracked v
    rw [List.mem_map]
    constructor
    · rintro ⟨⟨y, w⟩, hp, heq⟩
      have hget : env.bindings.get? y = some w := Env.mem_sorted.1 hp
      obtain ⟨hname, htext⟩ := Prod.mk.inj heq
      have hw : w = v := Value.text_injective (Json.string.inj htext)
      obtain ⟨hy, hdefined⟩ := Env.get?_bindings.1 hget
      have hyx : y = x := h.oneName y (h.within y (hy ▸ hdefined)).1 x hx hname
      rw [← hyx, ← hw]
      exact hget
    · exact fun hget => ⟨(x, v), Env.mem_sorted.2 hget, rfl⟩
  · intro p hp
    obtain ⟨⟨x, v⟩, hmem, rfl⟩ := List.mem_map.1 hp
    obtain ⟨hx, hdefined⟩ := Env.get?_bindings.1 (Env.mem_sorted.1 hmem)
    obtain ⟨hvars, htracked⟩ := h.within x (hx ▸ hdefined)
    exact ⟨x, hvars, htracked, v, rfl⟩

theorem Shows.nodup (h : Shows vars env ms) : ms.Nodup := by
  refine h.increasing.imp ?_
  rintro p _ hlt rfl
  exact String.lt_irrefl p.1 hlt

/-- Members that show equal facts are equal and in one order. -/
theorem Shows.eq_iff (h : Shows vars env ms) (h' : Shows vars env' ns) :
    ms = ns ↔ ∀ x ∈ vars, x.tracked = true → env.bindings.get? x = env'.bindings.get? x := by
  constructor
  · rintro rfl x hx htracked
    ext v
    exact (h.shown x hx htracked v).symm.trans (h'.shown x hx htracked v)
  · intro hget
    have hmem : ∀ p, p ∈ ms ↔ p ∈ ns := by
      intro p
      constructor
      · intro hp
        obtain ⟨x, hx, htracked, v, rfl⟩ := h.only p hp
        exact (h'.shown x hx htracked v).2 (hget x hx htracked ▸ (h.shown x hx htracked v).1 hp)
      · intro hp
        obtain ⟨x, hx, htracked, v, rfl⟩ := h'.only p hp
        exact (h.shown x hx htracked v).2 (hget x hx htracked ▸ (h'.shown x hx htracked v).1 hp)
    have hperm : ms.Perm ns := (List.perm_ext_iff_of_nodup h.nodup h'.nodup).2 hmem
    exact hperm.eq_of_pairwise (fun p q _ _ hpq hqp => absurd hpq (String.lt_asymm hqp)) h.increasing h'.increasing

theorem factJson_inj (h : Covers vars env) (h' : Covers vars env') :
    factJson (some env) = factJson (some env') ↔ env.same env' = true := by
  obtain ⟨ms, hms, hshows⟩ := h.shows
  obtain ⟨ns, hns, hshows'⟩ := h'.shows
  rw [hms, hns, Json.object.injEq, hshows.eq_iff hshows', Env.same_iff]
  constructor
  · intro hget x
    by_cases hx : x ∈ vars ∧ x.tracked = true
    · simp only [Env.get, hget x hx.1 hx.2]
    · rw [not_ne_iff.1 fun hne => hx (h.within x hne), not_ne_iff.1 fun hne => hx (h'.within x hne)]
  · intro hget x _ _
    ext v
    rw [Env.get?_bindings, Env.get?_bindings, hget x]

end Report

/-! ## Methods that are read -/

theorem Program.mem_ofForm {f : Form} {ms : List Method} {m : Method} (h : ofForm f = .ok ms) (hm : m ∈ ms) :
    ∃ f', Method.ofForm f' = .ok m := by
  obtain ⟨ms', hms', h⟩ := bind_eq_ok.1 h
  split at h
  · cases h
    obtain ⟨items, -, hms'⟩ := bind_eq_ok.1 hms'
    obtain ⟨⟨tag, args⟩, -, hms'⟩ := bind_eq_ok.1 hms'
    simp only at hms'
    split at hms'
    · obtain ⟨f', -, hf'⟩ := exists_of_mem_mapM hms' hm
      exact ⟨f', hf'⟩
    · obtain ⟨m', hm', hms'⟩ := bind_eq_ok.1 hms'
      cases hms'
      rw [List.mem_singleton.1 hm]
      exact ⟨f, hm'⟩
  · cases h

theorem Instr.WellFormed.target_mem {i : Instr} {x : Var} (h : i.WellFormed vars) (hx : i.target? = some x) :
    x ∈ vars := by
  cases h with
  | assign hy _ _ => cases hx; exact hy
  | invoke hy _ => exact hy x hx
  | load _ hy _ => cases hx; exact hy
  | branch | goto | label | ret | nop => cases hx

theorem Method.Tracks.mem_vars {f : Form} {m : Method} {x : Var} (hm : Method.ofForm f = .ok m)
    (hx : m.Tracks x) : x ∈ m.vars := by
  obtain ⟨hwell, -, xs, -, -, hvars⟩ := Method.wellFormed_of_ofForm hm
  cases hx.2 with
  | inl hparam =>
      rw [hvars]
      exact List.mem_append_left _ hparam
  | inr hstmt =>
      obtain ⟨s, hs, htarget⟩ := hstmt
      exact (hwell.instr s hs).target_mem htarget

/-! ## The document of a method -/

def Facts.onNodes {N F : Type} (t : Facts N F) (g : Graph N) : List F :=
  g.nodes.flatMap fun n => [t.before n, t.after n]

namespace Report

open Propagation Worklist

variable {m : Method} {s : Selection} {limit : Option Int} {events : List Event} {r : Report}
  {g : Graph Node} {t : Facts Node Env}

/-- The document of a node: its index, its text, and the facts before and after it. -/
def nodeJson (m : Method) (g : Graph Node) (t : Facts Node Env) (n : Node) : Json :=
  .object [("index", .int ((m.labelling.index n).getD (-1))), ("stmt", .string (g.label m.labelling n)),
    ("in", factJson (some (t.before n))), ("out", factJson (some (t.after n)))]

theorem rows_json (ht : r.solution.Holds r.graph t) :
    r.rows.map rowJson = r.graph.nodes.map (nodeJson r.method r.graph t) := by
  rw [rows, List.map_map]
  refine List.map_congr_left fun n hn => ?_
  obtain ⟨hin, hout⟩ := ht n hn
  simp only [Function.comp_apply, rowJson, hin, hout, nodeJson]

theorem covers_of_solve {f : Form} (hm : Method.ofForm f = .ok m) (hg : m.graph = .ok g) (limit : Option Int) :
    ∃ t, (solve (problem m) g limit).solution.Holds g t ∧ ∀ e ∈ t.onNodes g, Covers m.vars e := by
  obtain ⟨s', hv, hins, houts⟩ := solve_visits (p := problem m) (g := g) rfl limit
  obtain ⟨⟨t, ht⟩, -⟩ := hv.all_of_start (problem_keeps_tracks hg)
    (fun x hx => absurd (Env.get_empty x) hx) fun _ => tracks_of_boundary
  have ht' : (solve (problem m) g limit).solution.Holds g t := by
    intro n hn
    rw [hins, houts]
    exact ht n hn
  have hok := solve_allOk (problem_keeps_tracks hg) rfl (fun x hx => absurd (Env.get_empty x) hx)
    (fun _ => tracks_of_boundary) limit ht'
  have hone := (Method.wellFormed_of_ofForm hm).1.oneName
  refine ⟨t, ht', fun e he => ⟨hone, ?_⟩⟩
  have htracks : ∀ x, e.get x ≠ .undef → m.Tracks x := by
    obtain ⟨n, hn, he⟩ := List.mem_flatMap.1 he
    simp only [List.mem_cons, List.not_mem_nil, or_false] at he
    obtain rfl | rfl := he
    · exact (hok n hn).1
    · exact (hok n hn).2
  exact fun x hx => ⟨(htracks x hx).mem_vars hm, (htracks x hx).1⟩

/-- The document of a method that was read, by whatever reader of forms, and analysed has one row for each node
in the order of the graph. Every fact in it shows the variables of the method that are followed, and two facts
are shown alike exactly if they are the same. -/
theorem json_faithful {read : Form.Reader} {text : String} {ms : List Method}
    (hms : Program.ofText text read = .ok ms) (hm : m ∈ ms)
    (hrun : runMethod .initial m s limit = (events, .ok r)) :
    ∃ g t, m.graph = .ok g ∧ r.solution.Holds g t ∧
      r.json = .object [("method", .string m.name), ("analysis", .string s.id),
        ("options", .object (s.options.toList.map fun p => (p.1, settingJson p.2))),
        ("iterations", .int r.solution.iterations), ("nodes", .array (g.nodes.map (nodeJson m g t)))] ∧
      (∀ e ∈ t.onNodes g, ∃ members, factJson (some e) = .object members ∧ Shows m.vars e members) ∧
      ∀ e ∈ t.onNodes g, ∀ e' ∈ t.onNodes g,
        factJson (some e) = factJson (some e') ↔ e.same e' = true := by
  obtain ⟨_, -, hms⟩ := bind_eq_ok.1 hms
  obtain ⟨f, hf⟩ := Program.mem_ofForm hms hm
  obtain ⟨-, g, hg, -, rfl⟩ := runMethod_eq_ok.1 (congrArg Prod.snd hrun)
  obtain ⟨t, ht, hcovers⟩ := covers_of_solve hf hg limit
  refine ⟨g, t, hg, ht, ?_, fun e he => (hcovers e he).shows,
    fun e he e' he' => factJson_inj (hcovers e he) (hcovers e' he')⟩
  rw [json, rows_json ht]

/-- Leaves one variable undefined on one of two paths, and one outside the facts. -/
def choose : Method where
  name := "choose"
  params := [⟨"p", .prim .int⟩, ⟨"w", .prim .long⟩]
  locals := [⟨"p", .prim .int⟩, ⟨"w", .prim .long⟩, ⟨"x", .prim .int⟩, ⟨"b", .prim .boolean⟩]
  body := [⟨0, .assign ⟨"x", .prim .int⟩ (.lit 3)⟩,
    ⟨1, .branch (.bin .eq (.var ⟨"p", .prim .int⟩) (.lit 0)) "end"⟩,
    ⟨2, .assign ⟨"b", .prim .boolean⟩ (.lit 0)⟩, ⟨3, .label "end"⟩, ⟨4, .ret (some (.var ⟨"x", .prim .int⟩))⟩]

def chooseText : String :=
  "(method choose (params (int p) (long w)) (vars (int x) (boolean b))" ++
    " (body (assign x 3) (if (== p 0) end) (assign b false) (label end) (return x)))"

theorem json_faithful_choose :
    Program.ofText chooseText = .ok [choose] ∧
      ∃ events r g t, runMethod .initial choose .default none = (events, .ok r) ∧
        choose.graph = .ok g ∧ r.solution.Holds g t ∧
        (∀ e ∈ t.onNodes g, ∃ members, factJson (some e) = .object members ∧ Shows choose.vars e members) ∧
        (r.solution.outs.get? .exit).map (choose.vars.map ·.get) = some [.nac, .undef, .const 3, .const 0] := by
  have hread : (Program.ofText chooseText).toOption.map id = some [choose] := by decide +kernel
  have hrun : (runMethod .initial choose .default none).2.toOption.map
      (fun r => (r.solution.outs.get? .exit).map (choose.vars.map ·.get)) =
        some (some [.nac, .undef, .const 3, .const 0]) := by decide +kernel
  obtain ⟨ms, hms, rfl⟩ := exists_ok_of_toOption hread
  obtain ⟨r, hr, hexit⟩ := exists_ok_of_toOption hrun
  obtain ⟨g, t, hg, ht, -, hshows, -⟩ := json_faithful hms List.mem_cons_self (Prod.ext rfl hr)
  exact ⟨hms, _, r, g, t, Prod.ext rfl hr, hg, ht, hshows, hexit⟩

end Report

end Dataflow
