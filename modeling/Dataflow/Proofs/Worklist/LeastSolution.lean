import Dataflow.Proofs.Worklist.Attempt
import Dataflow.Proofs.Worklist.Monotone

/-!
# The least solution

Where no edge enters the entry, a run that ends leaves the least tables above those it started from
that no visit can raise. From the starting tables these are the least solution of the equations, and
from any tables between the starting tables and the least solution they are that solution again.
-/

namespace Dataflow.Worklist

variable {N F : Type} [DecidableEq N]

/-- The meet of the facts after the predecessors. -/
def inflow (p : Problem N F) (g : Graph N) (t : Facts N F) (n : N) : F :=
  (g.preds n).foldl (fun f m => p.meet (t.after m) f) p.initial

/-- The tables in which every fact before a node is the meet after its predecessors. -/
def tighten (p : Problem N F) (g : Graph N) (t : Facts N F) : Facts N F where
  before n := if n = g.entry then p.initial else inflow p g t n
  after n := if n = g.entry then p.boundary else (p.transfer n (inflow p g t n) (t.after n)).1

variable {p : Problem N F} {g : Graph N} {t t₀ : Facts N F} {n m : N} {rest : List N}

theorem before_tighten (hne : n ≠ g.entry) : (tighten p g t).before n = inflow p g t n := if_neg hne

theorem after_tighten_entry : (tighten p g t).after g.entry = p.boundary := if_pos rfl

theorem after_tighten (hne : n ≠ g.entry) :
    (tighten p g t).after n = (p.transfer n (inflow p g t n) (t.after n)).1 := if_neg hne

variable [Preorder F]

/-- What visits from the tables `t₀` have reached. -/
structure Reached (p : Problem N F) (g : Graph N) (t₀ t : Facts N F) (queue : List N) : Prop where
  entry_notMem : g.entry ∉ queue
  before_entry : t.before g.entry = t₀.before g.entry
  after_entry : t.after g.entry = t₀.after g.entry
  quiet : ∀ n ∈ g.nodes, n ≠ g.entry → n ∉ queue → Quiet p g t n
  below : ∀ T, Closed p g T → t₀.Below g T → t.Below g T

/-- The tables solve the equations of the problem and are below all tables that no visit can raise. -/
structure Solves (p : Problem N F) (g : Graph N) (t : Facts N F) : Prop where
  before_entry : t.before g.entry = p.initial
  after_entry : t.after g.entry = p.boundary
  quiet : ∀ n ∈ g.nodes, n ≠ g.entry → Quiet p g t n
  least : ∀ T, Closed p g T → p.boundary ≤ T.after g.entry → t.Below g T

/-! ## Visits -/

theorem Reached.visit (hp : p.Monotone) (hentry : ∀ e ∈ g.edges, e.dst ≠ g.entry)
    (hn : n ∈ g.nodes) (h : Reached p g t₀ t (n :: rest)) :
    Reached p g t₀ (visit p g t n) (requeue p g t n rest) := by
  have hne : n ≠ g.entry := fun e => h.entry_notMem (e ▸ List.mem_cons_self)
  have hrest : g.entry ∉ rest := fun hm => h.entry_notMem (List.mem_cons_of_mem n hm)
  constructor
  · exact entry_notMem_requeue hentry hrest
  · rw [before_visit_of_ne hne.symm, h.before_entry]
  · rw [after_visit_of_ne hne.symm, h.after_entry]
  · exact fun m hm hme => Quiet.visit hp (h.quiet m hm hme)
  · exact fun T hT h₀ => hT.visit_below hp (h.below T hT h₀) hn hne

theorem Visits.reached (hp : p.Monotone) (hentry : ∀ e ∈ g.edges, e.dst ≠ g.entry)
    {s : Solution N F} {s' : State N F} {vs : List (Visit N F)}
    (h : Visits p g ⟨s, seed g⟩ vs s') (hs : s.Holds g t₀) :
    ∃ t, s'.Holds g t ∧ Reached p g t₀ t s'.queue := by
  refine h.invariant (Reached p g t₀) (fun _ _ _ hn hi => hi.visit hp hentry hn)
    (holds_seed hs) ⟨?_, rfl, rfl, ?_, fun _ _ h₀ => h₀⟩
  · exact fun hmem => (mem_seed.1 hmem).2 rfl
  · intro n hn hne hq
    exact absurd (mem_seed.2 ⟨hn, hne⟩) hq

/-! ## The end of a run -/

theorem closed_of_quiet (hentry : ∀ e ∈ g.edges, e.dst ≠ g.entry)
    (h : ∀ n ∈ g.nodes, n ≠ g.entry → Quiet p g t n) : Closed p g t where
  edge e he := (h e.dst (g.ends_mem e he).2 (hentry e he)).before e.src
    (Graph.mem_preds.2 ⟨e, he, rfl, rfl⟩)
  node n hn hne := (h n hn hne).after.2

theorem Solves.closed (hentry : ∀ e ∈ g.edges, e.dst ≠ g.entry) (h : Solves p g t) : Closed p g t :=
  closed_of_quiet hentry h.quiet

theorem after_le_inflow (hp : p.Monotone) (h : m ∈ g.preds n) : t.after m ≤ inflow p g t n :=
  mem_le_foldl_meet hp t.after h _

theorem Quiet.inflow_le (hp : p.Monotone) (h : Quiet p g t n) : inflow p g t n ≤ t.before n :=
  foldl_meet_le hp (hp.initial_le _) h.before

theorem Solves.after_tighten_le (hp : p.Monotone) (h : Solves p g t) (hn : n ∈ g.nodes) :
    (tighten p g t).after n ≤ t.after n := by
  by_cases hne : n = g.entry
  · rw [hne, after_tighten_entry, h.after_entry]
  · have hq := h.quiet n hn hne
    rw [after_tighten hne]
    exact (hp.transfer_le n _ _ (hq.inflow_le hp)).trans hq.after.2

theorem Solves.closed_tighten (hp : p.Monotone) (hentry : ∀ e ∈ g.edges, e.dst ≠ g.entry)
    (h : Solves p g t) : Closed p g (tighten p g t) where
  edge e he := by
    have hpred : e.src ∈ g.preds e.dst := Graph.mem_preds.2 ⟨e, he, rfl, rfl⟩
    rw [before_tighten (hentry e he)]
    exact (h.after_tighten_le hp (g.ends_mem e he).1).trans (after_le_inflow hp hpred)
  node n _ hne := by
    rw [before_tighten hne, after_tighten hne]
    exact hp.transfer_le n _ _ (le_refl _)

theorem Solves.before_eq (hp : p.Monotone) (hentry : ∀ e ∈ g.edges, e.dst ≠ g.entry)
    (h : Solves p g t) (hn : n ∈ g.nodes) (hne : n ≠ g.entry) :
    AntisymmRel (· ≤ ·) (t.before n) (inflow p g t n) := by
  refine ⟨?_, (h.quiet n hn hne).inflow_le hp⟩
  -- the tightened tables are closed as well, so the least ones are below them
  have hle := (h.least _ (h.closed_tighten hp hentry) after_tighten_entry.ge n hn).1
  rwa [before_tighten hne] at hle

/-! ## Solving -/

theorem startFacts_below (hp : p.Monotone) {T : Facts N F} (h : p.boundary ≤ T.after g.entry) :
    (startFacts p g).Below g T := by
  intro n _
  refine ⟨hp.initial_le _, ?_⟩
  by_cases hne : n = g.entry
  · rw [hne, after_startFacts_entry]
    exact h
  · rw [after_startFacts hne]
    exact hp.initial_le _

theorem solve_solves (hp : p.Monotone) (hf : p.direction = .forward)
    (hentry : ∀ e ∈ g.edges, e.dst ≠ g.entry) (hb : Terminates p g (startForward p g)) :
    (solve p g none).error = none ∧ ∃ t, (solve p g none).solution.Holds g t ∧ Solves p g t := by
  obtain ⟨vs, s', hv, hq, hsolve⟩ := resumeForward_none holds_startForward hb
  obtain ⟨t, ht, hr⟩ := hv.reached hp hentry holds_startForward
  rw [solve_of_forward hf, hsolve]
  refine ⟨rfl, t, ht.facts, ⟨hr.before_entry, ?_, ?_, ?_⟩⟩
  · exact hr.after_entry.trans after_startFacts_entry
  · exact fun n hn hne => hr.quiet n hn hne (by simp [hq])
  · exact fun T hT h => hr.below T hT (startFacts_below hp h)

theorem solve_below (hp : p.Monotone) (hf : p.direction = .forward)
    (hentry : ∀ e ∈ g.edges, e.dst ≠ g.entry) {l : Facts N F} (hl : Solves p g l)
    (limit : Option Int) :
    ∃ t, (solve p g limit).solution.Holds g t ∧ t.after g.entry = p.boundary ∧ t.Below g l := by
  obtain ⟨s', hv, hsol, -⟩ := resumeForward_of_holds (p := p) limit holds_startForward
  obtain ⟨t, ht, hr⟩ := hv.reached hp hentry holds_startForward
  refine ⟨t, ?_, hr.after_entry.trans after_startFacts_entry,
    hr.below l (hl.closed hentry) (startFacts_below hp hl.after_entry.ge)⟩
  refine holds_solve hf limit ?_
  rw [hsol]
  exact ht.facts

theorem resume_solves (hp : p.Monotone) (hf : p.direction = .forward)
    (hentry : ∀ e ∈ g.edges, e.dst ≠ g.entry) {s : Solution N F} {l : Facts N F}
    (hl : Solves p g l) (hs : s.Holds g t) (hb : Terminates p g s)
    (hboundary : p.boundary ≤ t.after g.entry) (hbelow : t.Below g l) :
    (resume p g none s).error = none ∧
      ∃ t', (resume p g none s).solution.Holds g t' ∧ t'.Below g l ∧ l.Below g t' := by
  obtain ⟨vs, s', hv, hq, hresume⟩ := resumeForward_none hs hb
  obtain ⟨t', ht', hr⟩ := hv.reached hp hentry hs
  have hquiet : ∀ n ∈ g.nodes, n ≠ g.entry → Quiet p g t' n :=
    fun n hn hne => hr.quiet n hn hne (by simp [hq])
  simp only [resume, hf, hresume]
  refine ⟨trivial, t', ht'.facts, hr.below l (hl.closed hentry) hbelow, ?_⟩
  exact hl.least t' (closed_of_quiet hentry hquiet) (hr.after_entry ▸ hboundary)

theorem Solves.below_of_links {g' : Graph N} {l' : Facts N F}
    (hentry : ∀ e ∈ g'.edges, e.dst ≠ g'.entry) (hl : Solves p g t) (hl' : Solves p g' l')
    (he : g'.entry = g.entry) (hnodes : ∀ n ∈ g.nodes, n ∈ g'.nodes)
    (hlinks : ∀ u v, g.Links u v → g'.Links u v) : t.Below g l' := by
  have hclosed := hl'.closed hentry
  refine hl.least l' ⟨fun e h => ?_, fun n hn hne => ?_⟩ ?_
  · obtain ⟨e', h', hsrc, hdst⟩ := hlinks e.src e.dst ⟨e, h, rfl, rfl⟩
    rw [← hsrc, ← hdst]
    exact hclosed.edge e' h'
  · exact hclosed.node n (hnodes n hn) (he ▸ hne)
  · rw [← he, hl'.after_entry]

theorem Solves.below_of_edges {g' : Graph N} {l' : Facts N F}
    (hentry : ∀ e ∈ g'.edges, e.dst ≠ g'.entry) (hl : Solves p g t) (hl' : Solves p g' l')
    (hnodes : g'.nodes = g.nodes) (he : g'.entry = g.entry) (hedges : ∀ e ∈ g.edges, e ∈ g'.edges) :
    t.Below g' l' := by
  have hle : t.Below g l' := hl.below_of_links hentry hl' he (fun n hn => hnodes ▸ hn)
    fun _ _ ⟨e, h, hsrc, hdst⟩ => ⟨e, hedges e h, hsrc, hdst⟩
  exact fun n hn => hle n (hnodes ▸ hn)

end Dataflow.Worklist
