import Dataflow.Proofs.Worklist.Attempt

/-!
# What holds of every fact

A property of facts that the meet keeps, and every node of the graph, holds of all facts of a run if it
holds of those at the start.
-/

namespace Dataflow

variable {N F : Type} [DecidableEq N]

/-- The meet of two facts that are `ok` and what a node makes of such facts are `ok`. -/
structure Problem.Keeps (p : Problem N F) (g : Graph N) (ok : F → Prop) : Prop where
  meet_ok : ∀ {f f'}, ok f → ok f' → ok (p.meet f f')
  transfer_ok : ∀ {n f o}, n ∈ g.nodes → ok f → ok o → ok (p.transfer n f o).1

theorem Problem.Keeps.and {p : Problem N F} {g : Graph N} {ok ok' : F → Prop} (h : p.Keeps g ok)
    (h' : p.Keeps g ok') : p.Keeps g fun f => ok f ∧ ok' f where
  meet_ok hf hf' := ⟨h.meet_ok hf.1 hf'.1, h'.meet_ok hf.2 hf'.2⟩
  transfer_ok hn hf ho := ⟨h.transfer_ok hn hf.1 ho.1, h'.transfer_ok hn hf.2 ho.2⟩

/-- Every fact of the solution is `ok`. -/
structure Solution.All (s : Solution N F) (ok : F → Prop) : Prop where
  ins : ∀ q ∈ s.ins.toList, ok q.2
  outs : ∀ q ∈ s.outs.toList, ok q.2

/-- Only nodes of the graph have facts. -/
structure Solution.Inside (s : Solution N F) (g : Graph N) : Prop where
  ins : ∀ n ∈ s.ins.keys, n ∈ g.nodes
  outs : ∀ n ∈ s.outs.keys, n ∈ g.nodes

theorem Solution.Inside.set {s : Solution N F} {g : Graph N} {n : N} (h : s.Inside g)
    (hn : n ∈ g.nodes) (f f' : F) : ((s.setIn n f).setOut n f').Inside g where
  ins k hk := by
    rcases OrderedMap.mem_keys_insertIn.1 hk with rfl | hk
    · exact hn
    · exact h.ins k hk
  outs k hk := by
    rcases OrderedMap.mem_keys_insertIn.1 hk with rfl | hk
    · exact hn
    · exact h.outs k hk

theorem Solution.Holds.unique {s : Solution N F} {g : Graph N} {t t' : Facts N F} (h : s.Holds g t)
    (h' : s.Holds g t') {n : N} (hn : n ∈ g.nodes) :
    t.before n = t'.before n ∧ t.after n = t'.after n :=
  ⟨Option.some.inj ((h n hn).1.symm.trans (h' n hn).1),
    Option.some.inj ((h n hn).2.symm.trans (h' n hn).2)⟩

namespace Worklist

def AllOk (g : Graph N) (ok : F → Prop) (t : Facts N F) : Prop :=
  ∀ n ∈ g.nodes, ok (t.before n) ∧ ok (t.after n)

variable {p : Problem N F} {g : Graph N} {s : Solution N F} {t : Facts N F} {n : N} {ok : F → Prop}

theorem foldl_meet_ok (hk : p.Keeps g ok) {e : N → F} {l : List N} {f : F}
    (he : ∀ m ∈ l, ok (e m)) (hf : ok f) : ok (l.foldl (fun f m => p.meet (e m) f) f) := by
  induction l generalizing f with
  | nil => exact hf
  | cons m l ih =>
      exact ih (fun k hk => he k (List.mem_cons_of_mem m hk))
        (hk.meet_ok (he m List.mem_cons_self) hf)

theorem AllOk.met (hk : p.Keeps g ok) (h : AllOk g ok t) (hn : n ∈ g.nodes) : ok (met p g t n) :=
  foldl_meet_ok hk (fun m hm => (h m (Graph.mem_nodes_of_mem_preds hm)).2) (h n hn).1

theorem AllOk.visit (hk : p.Keeps g ok) (h : AllOk g ok t) (hn : n ∈ g.nodes) :
    AllOk g ok (visit p g t n) := by
  intro m hm
  by_cases hmn : m = n
  · subst hmn
    rw [before_visit_self, after_visit_self]
    exact ⟨h.met hk hn, hk.transfer_ok hn (h.met hk hn) (h m hn).2⟩
  · rw [before_visit_of_ne hmn, after_visit_of_ne hmn]
    exact h m hm

theorem Visits.allOk (hk : p.Keeps g ok) {s s' : State N F} {vs : List (Visit N F)}
    (h : Visits p g s vs s') (hs : s.Holds g t) (hok : AllOk g ok t) :
    ∃ t', s'.Holds g t' ∧ AllOk g ok t' :=
  h.invariant (fun t _ => AllOk g ok t) (fun _ _ _ hn hi => hi.visit hk hn) hs hok

theorem allOk_startFacts (hinitial : ok p.initial) (hboundary : ok p.boundary) :
    AllOk g ok (startFacts p g) := by
  intro n _
  refine ⟨hinitial, ?_⟩
  by_cases hne : n = g.entry
  · rw [hne, after_startFacts_entry]
    exact hboundary
  · rw [after_startFacts hne]
    exact hinitial

/-! ## All facts of a run -/

theorem forall_of_get? {facts : OrderedMap N F} {f : N → F}
    (h : ∀ n ∈ facts.keys, facts.get? n = some (f n) ∧ ok (f n)) : ∀ q ∈ facts.toList, ok q.2 := by
  intro q hq
  obtain ⟨hget, hok⟩ := h q.1 (List.mem_map_of_mem hq)
  rw [OrderedMap.get?_eq_some_iff.2 hq, Option.some.injEq] at hget
  exact hget ▸ hok

theorem AllOk.all (h : AllOk g ok t) (hs : s.Holds g t) (hinside : s.Inside g) : s.All ok where
  ins := forall_of_get? fun n hn => ⟨(hs n (hinside.ins n hn)).1, (h n (hinside.ins n hn)).1⟩
  outs := forall_of_get? fun n hn => ⟨(hs n (hinside.outs n hn)).2, (h n (hinside.outs n hn)).2⟩

theorem inside_startForward (p : Problem N F) (g : Graph N) : (startForward p g).Inside g := by
  refine List.foldlRecOn (motive := fun s : Solution N F => s.Inside g) g.nodes _ ⟨nofun, nofun⟩ ?_
  exact fun s hs n hn => hs.set hn _ _

theorem Visits.inside {s s' : State N F} {vs : List (Visit N F)} (h : Visits p g s vs s')
    (hs : s.Holds g t) (hinside : s.solution.Inside g) : s'.solution.Inside g := by
  induction h generalizing t with
  | nil => exact hinside
  | cons hstep _ ih =>
      obtain ⟨hn, hwrites⟩ := step_writes hs hstep
      obtain ⟨_, _, _, _, _, hs₁, _⟩ := step_next hs hstep
      exact ih hs₁ (hwrites ▸ hinside.set hn _ _)

/-- What the starting facts have and every visit keeps, all facts of every state of a run have. -/
theorem Visits.all_of_start (hk : p.Keeps g ok) (hinitial : ok p.initial) (hboundary : ok p.boundary)
    {s : State N F} {vs : List (Visit N F)} (h : Visits p g ⟨startForward p g, seed g⟩ vs s) :
    (∃ t, s.solution.Holds g t) ∧ s.solution.All ok := by
  have hs : State.Holds ⟨startForward p g, seed g⟩ g _ := holds_seed holds_startForward
  obtain ⟨t, ht, hok⟩ := h.allOk hk hs (allOk_startFacts hinitial hboundary)
  exact ⟨⟨t, ht.facts⟩, hok.all ht.facts (h.inside hs (inside_startForward p g))⟩

theorem inside_solve (hf : p.direction = .forward) (limit : Option Int) :
    (solve p g limit).solution.Inside g := by
  obtain ⟨s, hv, hins, houts⟩ := solve_visits (p := p) (g := g) hf limit
  have hinside := hv.inside (holds_seed holds_startForward) (inside_startForward p g)
  exact ⟨hins ▸ hinside.ins, houts ▸ hinside.outs⟩

theorem solve_allOk (hk : p.Keeps g ok) (hf : p.direction = .forward) (hinitial : ok p.initial)
    (hboundary : ok p.boundary) (limit : Option Int) (ht : (solve p g limit).solution.Holds g t) :
    AllOk g ok t := by
  obtain ⟨s', hv, hsol, -⟩ := resumeForward_of_holds (p := p) limit holds_startForward
  obtain ⟨t', ht', hok⟩ := hv.allOk hk (holds_seed holds_startForward)
    (allOk_startFacts hinitial hboundary)
  have hholds : (solve p g limit).solution.Holds g t' := by
    refine holds_solve hf limit ?_
    rw [hsol]
    exact ht'.facts
  intro n hn
  obtain ⟨hbefore, hafter⟩ := ht.unique hholds hn
  rw [hbefore, hafter]
  exact hok n hn

end Worklist

end Dataflow
