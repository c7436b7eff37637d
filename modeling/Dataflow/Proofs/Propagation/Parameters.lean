import Dataflow.Proofs.Graph.Reach
import Dataflow.Proofs.Propagation.Definitions
import Dataflow.Proofs.Worklist.Invariant

/-!
# Variables that no statement defines

Where no statement defines a variable, only the entry does, so before and after every other node it has the
value that it has after the entry if the node can be reached, and none otherwise.
-/

namespace Dataflow

namespace Graph

variable {g : Graph Node} {x : Var} {d n : Node}

/-- No statement of the graph defines the variable. -/
def Untouched (g : Graph Node) (x : Var) : Prop := ∀ k ∈ g.nodes, k.instr.target? ≠ some x

theorem Untouched.clearWalk_iff (hx : g.Untouched x) :
    g.ClearWalk x d n ↔ Relation.TransGen g.Links d n := by
  constructor
  · intro h
    induction h with
    | link hl => exact .single hl
    | snoc _ _ hl ih => exact ih.tail hl
  · intro h
    induction h with
    | single hl => exact .link hl
    | tail _ hl ih => exact ih.snoc (hx _ hl.mem_nodes.1) hl

theorem Untouched.defines_iff (hx : g.Untouched x) (hd : d ∈ g.nodes) : g.Defines x d ↔ d = g.entry :=
  or_iff_left (hx d hd)

theorem untouched_of_graph {m : Method} (hg : m.graph = .ok g)
    (hx : ∀ s ∈ m.body, s.instr.target? ≠ some x) : g.Untouched x := by
  intro k hk
  cases k with
  | entry => exact nofun
  | exit => exact nofun
  | stmt s => exact hx s ((Method.stmt_mem_nodes hg).1 hk)

end Graph

namespace Propagation

open Worklist

variable {m : Method} {g : Graph Node} {t : Facts Node Env} {x : Var} {n : Node}

open Classical in
theorem LeastSolution.before_of_untouched (h : LeastSolution m g t)
    (hentry : ∀ e ∈ g.edges, e.dst ≠ g.entry) (hx : g.Untouched x) (hn : n ∈ g.nodes) :
    (t.before n).get x =
      if Relation.TransGen g.Links g.entry n then (t.after g.entry).get x else .undef := by
  have hdefinitions : ∀ v ∈ (g.definitions x n).map fun d => (t.after d).get x,
      Relation.TransGen g.Links g.entry n ∧ v = (t.after g.entry).get x := by
    intro v hv
    obtain ⟨d, hd, rfl⟩ := List.mem_map.1 hv
    obtain ⟨hdefines, hwalk⟩ := Graph.mem_definitions.1 hd
    obtain rfl := (hx.defines_iff hwalk.mem_nodes.1).1 hdefines
    exact ⟨hx.clearWalk_iff.1 hwalk, rfl⟩
  rw [h.before_eq_defined hentry hn x]
  split
  · next hpath =>
      apply le_antisymm
      · exact Value.meetAll_le_iff.2 fun v hv => (hdefinitions v hv).2.le
      · exact after_le_defined (.inl rfl) (hx.clearWalk_iff.2 hpath)
  · next hpath =>
      exact Value.le_undef.1 (Value.meetAll_le_iff.2 fun v hv => absurd (hdefinitions v hv).1 hpath)

theorem LeastSolution.after_of_untouched (h : LeastSolution m g t) (hx : g.Untouched x) (hn : n ∈ g.nodes)
    (hne : n ≠ g.entry) : (t.after n).get x = (t.before n).get x :=
  h.after_eq_before hn fun hd => hne ((hx.defines_iff hn).1 hd)

theorem LeastSolution.undef_of_untouched (h : LeastSolution m g t)
    (hentry : ∀ e ∈ g.edges, e.dst ≠ g.entry) (hx : g.Untouched x) (hparam : x ∉ m.params) :
    AllOk g (fun env => env.get x = .undef) t := by
  have hundef : (t.after g.entry).get x = .undef := by
    rw [h.after_entry, get_boundary, if_neg fun hp => hparam hp.1]
  have hbefore : ∀ n ∈ g.nodes, (t.before n).get x = .undef := by
    intro n hn
    rw [h.before_of_untouched hentry hx hn, hundef, ite_self]
  intro n hn
  refine ⟨hbefore n hn, ?_⟩
  by_cases hne : n = g.entry
  · exact hne ▸ hundef
  · exact (h.after_of_untouched hx hn hne).trans (hbefore n hn)

theorem mem_reachable_iff {r : List Node} (hr : ∀ k, k ∈ r ↔ Relation.ReflTransGen g.Links g.entry k)
    (hne : n ≠ g.entry) : n ∈ r ↔ Relation.TransGen g.Links g.entry n := by
  rw [hr, Relation.reflTransGen_iff_eq_or_transGen]
  exact or_iff_right hne

/-- A parameter that no statement defines is `nac` before and after every reachable node but the entry, and
has no value before and after the others. A variable that is no parameter either has no value anywhere. -/
theorem solve_untouched (hg : m.graph = .ok g) :
    ∃ t r, SolvesTo m g t ∧ g.reachable? g.entry = some r ∧
      (∀ x ∈ m.params, x.tracked = true → (∀ s ∈ m.body, s.instr.target? ≠ some x) →
        ∀ n ∈ g.nodes, n ≠ g.entry →
          (n ∈ r → (t.before n).get x = .nac ∧ (t.after n).get x = .nac) ∧
            (n ∉ r → (t.before n).get x = .undef ∧ (t.after n).get x = .undef)) ∧
      ∀ x, x ∉ m.params → (∀ s ∈ m.body, s.instr.target? ≠ some x) →
        (solve (problem m) g none).solution.All fun env => env.get x = .undef := by
  have hentry := Method.dst_ne_entry hg
  obtain ⟨t, ht, h⟩ := exists_solvesTo m hentry
  obtain ⟨r, hr, hmem⟩ := Graph.reachable?_of_mem g.entry_mem
  refine ⟨t, r, ht, hr, fun x hparam htracked hx n hn hne => ?_, fun x hparam hx => ?_⟩
  · have hfree := Graph.untouched_of_graph hg hx
    have hnac : (t.after g.entry).get x = .nac := by
      rw [h.after_entry, get_boundary, if_pos ⟨hparam, htracked⟩]
    rw [h.after_of_untouched hfree hn hne, h.before_of_untouched hentry hfree hn, hnac,
      mem_reachable_iff hmem hne]
    exact ⟨fun hpath => ⟨if_pos hpath, if_pos hpath⟩, fun hpath => ⟨if_neg hpath, if_neg hpath⟩⟩
  · have hall := h.undef_of_untouched hentry (Graph.untouched_of_graph hg hx) hparam
    exact hall.all ht.2 (inside_solve rfl none)

/-- A loop that reads the parameter and leads to the return, and that control never enters. -/
def island : Method where
  name := "island"
  params := [⟨"p", .prim .int⟩]
  locals := [⟨"k", .prim .int⟩, ⟨"q", .prim .int⟩]
  body :=
    let p : Var := ⟨"p", .prim .int⟩
    let k : Var := ⟨"k", .prim .int⟩
    [⟨0, .goto "out"⟩, ⟨1, .label "loop"⟩, ⟨2, .assign k (.bin .add (.var p) (.var k))⟩,
      ⟨3, .branch (.bin .gt (.var k) (.lit 0)) "loop"⟩, ⟨4, .label "out"⟩, ⟨5, .ret (some (.var p))⟩]

theorem solve_untouched_island :
    let p : Var := ⟨"p", .prim .int⟩
    let q : Var := ⟨"q", .prim .int⟩
    ∃ g t, island.graph = .ok g ∧ SolvesTo island g t ∧
      g.reachable? g.entry = some [.entry, island.nodeAt 0, island.nodeAt 4, island.nodeAt 5, .exit] ∧
      ((t.before (island.nodeAt 3)).get p = .undef ∧ (t.after (island.nodeAt 3)).get p = .undef) ∧
      ((t.before (island.nodeAt 4)).get p = .nac ∧ (t.after (island.nodeAt 4)).get p = .nac) ∧
      (solve (problem island) g none).solution.All fun env => env.get q = .undef := by
  intro p q
  obtain ⟨g, hg, hentry, hreach⟩ : ∃ g, island.graph = .ok g ∧ g.entry = .entry ∧
      g.reachable? g.entry =
        some [.entry, island.nodeAt 0, island.nodeAt 4, island.nodeAt 5, .exit] := ⟨_, rfl, rfl, by cbv⟩
  obtain ⟨t, r, ht, hr, hparams, hothers⟩ := solve_untouched hg
  rw [hreach, Option.some.injEq] at hr
  subst hr
  have hp := hparams p (by decide) rfl (by decide)
  refine ⟨g, t, hg, ht, hreach, (hp _ (Method.nodeAt_mem_nodes hg 3) ?_).2 (by decide),
    (hp _ (Method.nodeAt_mem_nodes hg 4) ?_).1 (by decide), hothers q (by decide) (by decide)⟩
  · exact hentry ▸ Method.nodeAt_ne_entry
  · exact hentry ▸ Method.nodeAt_ne_entry

end Propagation

end Dataflow
