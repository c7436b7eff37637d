import Dataflow.Proofs.Method.Edges
import Dataflow.Proofs.Propagation.Monotone
import Dataflow.Proofs.Worklist.LeastSolution

/-!
# Solving constant propagation

From any facts a run ends, after a number of visits that the variables with a value bound. From the
start it leads to the least solution of the dataflow equations, and from facts below the least solution
it leads there again.
-/

namespace Dataflow.Propagation

open Worklist

variable {m : Method} {g : Graph Node} {s : Solution Node Env} {t l : Facts Node Env}

/-- Two tables that give every variable the same value at every node. -/
def Agree (g : Graph Node) (t u : Facts Node Env) : Prop :=
  ∀ n ∈ g.nodes, ∀ x, (t.before n).get x = (u.before n).get x ∧ (t.after n).get x = (u.after n).get x

/-- The least solution of the dataflow equations. Before a node is the meet of what its predecessors
leave, after it what it makes of that, and all tables that satisfy the equations as inequalities are
above these. -/
structure LeastSolution (m : Method) (g : Graph Node) (t : Facts Node Env) : Prop where
  before_entry : t.before g.entry = ∅
  after_entry : t.after g.entry = boundary m
  before : ∀ n ∈ g.nodes, n ≠ g.entry → ∀ x,
    (t.before n).get x = Value.meetAll ((g.preds n).map fun k => (t.after k).get x)
  after : ∀ n ∈ g.nodes, n ≠ g.entry → ∀ x, (t.after n).get x = (flow n (t.before n)).get x
  least : ∀ T : Facts Node Env, boundary m ≤ T.after g.entry →
    (∀ e ∈ g.edges, T.after e.src ≤ T.before e.dst) →
    (∀ n ∈ g.nodes, n ≠ g.entry → flow n (T.before n) ≤ T.after n) → t.Below g T

/-- Solving without a limit ends, with these facts. -/
def SolvesTo (m : Method) (g : Graph Node) (t : Facts Node Env) : Prop :=
  (solve (problem m) g none).error = none ∧ (solve (problem m) g none).solution.Holds g t

/-- Resuming without a limit ends, with these facts. -/
def ResumesTo (m : Method) (g : Graph Node) (s : Solution Node Env) (l : Facts Node Env) : Prop :=
  (resume (problem m) g none s).error = none ∧
    ∃ t, (resume (problem m) g none s).solution.Holds g t ∧ Agree g t l

/-- Counts a parameter down by a constant that every turn computes anew. One statement stands at two
positions, and one where control never comes. -/
def countdown : Method where
  name := "countdown"
  params := [⟨"n", .prim .int⟩]
  locals := [⟨"k", .prim .int⟩, ⟨"d", .prim .int⟩]
  body :=
    let n : Var := ⟨"n", .prim .int⟩
    let k : Var := ⟨"k", .prim .int⟩
    let d : Var := ⟨"d", .prim .int⟩
    let again : Stmt := ⟨2, .assign d (.bin .sub (.var k) (.lit 4))⟩
    [⟨0, .assign k (.lit 5)⟩, ⟨1, .label "top"⟩, again, ⟨3, .assign n (.bin .sub (.var n) (.var d))⟩,
      again, ⟨4, .branch (.bin .gt (.var n) (.lit 0)) "top"⟩, ⟨5, .ret (some (.var k))⟩,
      ⟨6, .assign d (.bin .div (.var d) (.lit 0))⟩]

/-- A statement that increments a variable and may be followed by itself and, in two ways, by the
entry. -/
def spin : Graph Node :=
  let k : Var := ⟨"k", .prim .int⟩
  let again : Node := .stmt ⟨0, .assign k (.bin .add (.var k) (.lit 1))⟩
  [⟨.entry, again, .entry⟩, ⟨again, again, .goto⟩, ⟨again, .entry, .ifTrue⟩,
    ⟨again, .entry, .ifFalse⟩].foldl Graph.addEdge (.start "spin" .entry .exit)

/-! ## Termination -/

theorem allOk_support (hs : s.Holds g t) : AllOk g (Within (support g s)) t := by
  intro n hn
  obtain ⟨hin, hout⟩ := hs n hn
  constructor
  · exact fun x hx => mem_support.2 (.inl
      ⟨(n, t.before n), List.mem_append_left _ (OrderedMap.get?_eq_some_iff.1 hin), hx⟩)
  · exact fun x hx => mem_support.2 (.inl
      ⟨(n, t.after n), List.mem_append_right _ (OrderedMap.get?_eq_some_iff.1 hout), hx⟩)

theorem terminates (m : Method) (hs : s.Holds g t) : Terminates (problem m) g s := by
  intro vs s' h
  refine h.length_le_height (problem_monotone m) (problem_finiteHeight m g ?_) (holds_seed hs)
    (allOk_support hs)
  exact fun n hn x ht hx => mem_support.2 (.inr ⟨n, hn, ht, hx⟩)

/-- From any facts a run without a limit ends. It makes at most one visit for every node but the entry
and, for every successor of a node, one more and two for each variable that can have a value. -/
theorem resumeForward_ends (m : Method) (hs : s.Holds g t) :
    let bound := (seed g).length +
      total (g.nodes.map fun n => (1 + 2 * (support g s).length) * (g.succs n).length)
    (∀ vs s', Visits (problem m) g ⟨s, seed g⟩ vs s' → vs.length ≤ bound) ∧
      ∃ vs s', Visits (problem m) g ⟨s, seed g⟩ vs s' ∧ s'.queue = [] ∧ vs.length ≤ bound ∧
        resumeForward (problem m) g none s =
          ⟨{ s'.solution with iterations := vs.length }, vs, none⟩ := by
  have hb : Terminates (problem m) g s := terminates m hs
  obtain ⟨vs, s', hv, hq, hresume⟩ := resumeForward_none hs hb
  exact ⟨hb, vs, s', hv, hq, hb vs s' hv, hresume⟩

theorem resumeForward_ends_spin :
    let high : Env := .ofList [(⟨"k", .prim .int⟩, .const 8589934592)]
    let s := startForward { problem countdown with initial := high, boundary := ∅ } spin
    (∃ t, s.Holds spin t) ∧
      (∀ vs s', Visits (problem countdown) spin ⟨s, seed spin⟩ vs s' → vs.length ≤ 10) ∧
        ∃ vs s', Visits (problem countdown) spin ⟨s, seed spin⟩ vs s' ∧ s'.queue = [] ∧
          vs.length ≤ 10 ∧ resumeForward (problem countdown) spin none s =
            ⟨{ s'.solution with iterations := vs.length }, vs, none⟩ :=
  ⟨⟨_, holds_startForward⟩, resumeForward_ends countdown holds_startForward⟩

/-! ## The least solution -/

theorem get_inflow (m : Method) (g : Graph Node) (t : Facts Node Env) (n : Node) (x : Var) :
    (inflow (problem m) g t n).get x = Value.meetAll ((g.preds n).map fun k => (t.after k).get x) := by
  rw [Value.meetAll, List.foldl_map]
  exact (List.foldl_hom (fun env : Env => env.get x)
    fun env k => (Env.get_merge (t.after k) env x).symm).symm

theorem get_after_of_quiet {n : Node} (h : Quiet (problem m) g t n) (x : Var) :
    (t.after n).get x = (flow n (t.before n)).get x :=
  Env.antisymm_iff.1 (h.after.trans (transfer_antisymm m n _ _)) x

theorem leastSolution_of_solves (hentry : ∀ e ∈ g.edges, e.dst ≠ g.entry)
    (h : Solves (problem m) g t) : LeastSolution m g t where
  before_entry := h.before_entry
  after_entry := h.after_entry
  before n hn hne x := by
    rw [← get_inflow m g t n x]
    exact Env.antisymm_iff.1 (h.before_eq (problem_monotone m) hentry hn hne) x
  after n hn hne := get_after_of_quiet (h.quiet n hn hne)
  least T hboundary hedge hnode := by
    refine h.least T ⟨hedge, fun n hn hne => ?_⟩ hboundary
    exact (transfer_antisymm m n _ _).1.trans (hnode n hn hne)

theorem solve_problem (m : Method) (hentry : ∀ e ∈ g.edges, e.dst ≠ g.entry) :
    (solve (problem m) g none).error = none ∧
      ∃ t, (solve (problem m) g none).solution.Holds g t ∧ Solves (problem m) g t :=
  solve_solves (problem_monotone m) rfl hentry (terminates m holds_startForward)

theorem exists_solvesTo (m : Method) (hentry : ∀ e ∈ g.edges, e.dst ≠ g.entry) :
    ∃ t, SolvesTo m g t ∧ LeastSolution m g t := by
  obtain ⟨herr, t, ht, hsolves⟩ := solve_problem m hentry
  exact ⟨t, ⟨herr, ht⟩, leastSolution_of_solves hentry hsolves⟩

theorem LeastSolution.after_le_before (h : LeastSolution m g t)
    (hentry : ∀ e ∈ g.edges, e.dst ≠ g.entry) {u v : Node} (huv : g.Links u v) :
    t.after u ≤ t.before v := by
  obtain ⟨e, he, rfl, rfl⟩ := huv
  intro x
  rw [h.before e.dst (g.ends_mem e he).2 (hentry e he) x]
  exact Value.le_meetAll (List.mem_map_of_mem (Graph.mem_preds.2 ⟨e, he, rfl, rfl⟩))

theorem LeastSolution.after_stmt (hg : m.graph = .ok g) (h : LeastSolution m g t) {s : Stmt}
    (hs : s ∈ m.body) (x : Var) :
    (t.after (.stmt s)).get x = (flow (.stmt s) (t.before (.stmt s))).get x :=
  h.after _ ((Method.stmt_mem_nodes hg).2 hs) (by rw [Method.entry_of_graph hg]; exact nofun) x

theorem solve_leastSolution (h : m.graph = .ok g) :
    (solve (problem m) g none).error = none ∧
      ∃ t, (solve (problem m) g none).solution.Holds g t ∧ LeastSolution m g t := by
  have hentry := Method.dst_ne_entry h
  obtain ⟨herr, t, ht, hsolves⟩ := solve_problem m hentry
  exact ⟨herr, t, ht, leastSolution_of_solves hentry hsolves⟩

theorem solve_leastSolution_countdown :
    ∃ g, countdown.graph = .ok g ∧ (solve (problem countdown) g none).error = none ∧
      ∃ t, (solve (problem countdown) g none).solution.Holds g t ∧ LeastSolution countdown g t :=
  ⟨_, rfl, solve_leastSolution rfl⟩

/-! ## Resuming -/

theorem agree_of_below (h : t.Below g l) (h' : l.Below g t) : Agree g t l := fun n hn x =>
  ⟨le_antisymm ((h n hn).1 x) ((h' n hn).1 x), le_antisymm ((h n hn).2 x) ((h' n hn).2 x)⟩

theorem resumesTo_of_below (hentry : ∀ e ∈ g.edges, e.dst ≠ g.entry) {l : Facts Node Env}
    (hl : Solves (problem m) g l) (hs : s.Holds g t) (hboundary : boundary m ≤ t.after g.entry)
    (hbelow : t.Below g l) : ResumesTo m g s l := by
  obtain ⟨herr, r, hr, hle, hge⟩ :=
    resume_solves (problem_monotone m) rfl hentry hl hs (terminates m hs) hboundary hbelow
  exact ⟨herr, r, hr, agree_of_below hle hge⟩

/-- Resuming from facts between the start and the least solution leads to the least solution. Such
are the facts that a run leaves at a limit, and those that solve a graph with fewer edges. -/
theorem resume_eq_solve (m : Method) (hentry : ∀ e ∈ g.edges, e.dst ≠ g.entry) :
    (solve (problem m) g none).error = none ∧
      ∃ l, (solve (problem m) g none).solution.Holds g l ∧
        (∀ s t, s.Holds g t → (∀ x, (t.after g.entry).get x = (boundary m).get x) → t.Below g l →
          ResumesTo m g s l) ∧
        (∀ limit, ResumesTo m g (solve (problem m) g limit).solution l) ∧
        ∀ (g₀ : Graph Node) (es : List (Edge Node)), g = es.foldl Graph.addEdge g₀ →
          (∀ e ∈ es, e.src ∈ g₀.nodes ∧ e.dst ∈ g₀.nodes) →
            (solve (problem m) g₀ none).error = none ∧
              ResumesTo m g (solve (problem m) g₀ none).solution l := by
  obtain ⟨herr, l, hl, hsolves⟩ := solve_problem m hentry
  refine ⟨herr, l, hl, ?_, ?_, ?_⟩
  · intro s t hs hboundary hbelow
    exact resumesTo_of_below hentry hsolves hs (fun x => (hboundary x).ge) hbelow
  · intro limit
    obtain ⟨t, ht, hboundary, hbelow⟩ := solve_below (problem_monotone m) rfl hentry hsolves limit
    exact resumesTo_of_below hentry hsolves ht hboundary.ge hbelow
  · rintro g₀ es rfl hends
    have hnodes : (es.foldl Graph.addEdge g₀).nodes = g₀.nodes := Graph.nodes_foldl_addEdge hends
    have hentry₀ : ∀ e ∈ g₀.edges, e.dst ≠ g₀.entry := by
      simpa using fun e he => hentry e (by simp [he])
    obtain ⟨herr₀, t, ht, ht₀⟩ := solve_problem m hentry₀
    refine ⟨herr₀, resumesTo_of_below hentry hsolves (fun n hn => ht n (hnodes ▸ hn)) ?_ ?_⟩
    · rw [Graph.entry_foldl_addEdge]
      exact ht₀.after_entry.ge
    · exact ht₀.below_of_edges hentry hsolves hnodes (by simp) fun e he => by simp [he]

theorem resume_eq_solve_countdown :
    ∃ g₀ g, countdown.graph = .ok g₀ ∧
      g = [⟨.stmt ⟨6, .assign ⟨"d", .prim .int⟩ (.bin .div (.var ⟨"d", .prim .int⟩) (.lit 0))⟩,
        .stmt ⟨1, .label "top"⟩, .goto⟩].foldl Graph.addEdge g₀ ∧
      (∀ e ∈ g.edges, e.dst ≠ g.entry) ∧
      (solve (problem countdown) g (some 3)).error = some (.nonConvergence 3) ∧
      (solve (problem countdown) g none).error = none ∧
      ∃ l, (solve (problem countdown) g none).solution.Holds g l ∧
        ResumesTo countdown g (solve (problem countdown) g (some 3)).solution l ∧
        ResumesTo countdown g (solve (problem countdown) g₀ none).solution l := by
  refine ⟨_, _, rfl, rfl, by decide, by decide,
    And.imp_right ?_ (resume_eq_solve countdown (by decide))⟩
  rintro ⟨l, hl, -, hlimit, hfewer⟩
  exact ⟨l, hl, hlimit (some 3), (hfewer _ _ rfl (by decide)).2⟩

end Dataflow.Propagation
