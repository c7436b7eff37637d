import Dataflow.Propagation.Memory
import Dataflow.Proofs.Env.Order
import Mathlib.Data.List.Nodup

/-!
# Environments in memory are environments

However objects are made, copied and written, no two share a map and no map holds `undef`, so every object holds the
bindings of an environment, and an operation does to it what the operation on environments does. Hence maps are
equal when all look-ups agree, an operation changes one object, and it reports a change exactly when a look-up
changed.
-/

namespace Dataflow

/-! ## Maps -/

namespace ValueMap

theorem update_bindings (e : Env) (x : Var) (v : Value) :
    update e.bindings x v = ((e.update x v).1.bindings, (e.update x v).2) := by
  unfold update Env.update Env.set
  split
  · next hv =>
      subst hv
      refine Prod.ext rfl (Bool.eq_iff_iff.2 ?_)
      rw [Option.isSome_iff_exists, ← OrderedMap.mem_keys, Env.mem_keys, decide_eq_true_iff]
  · next hv =>
      refine Prod.ext rfl (decide_eq_decide.2 (not_congr ?_))
      rw [Env.get?_bindings, and_iff_left hv]

theorem ofList_eq (l : List (Var × Value)) : ofList l = (Env.ofList l).bindings := by
  have hfold : ∀ e : Env, l.foldl (fun m p => (update m p.1 p.2).1) e.bindings =
      (l.foldl (fun e p => e.set p.1 p.2) e).bindings := by
    induction l with
    | nil => exact fun _ => rfl
    | cons p l ih =>
        intro e
        rw [List.foldl_cons, List.foldl_cons, update_bindings]
        exact ih _
  exact hfold .empty

theorem merge_bindings (source target : Env) :
    merge source.bindings target.bindings = (source.merge target).bindings := by
  have hfold : ∀ (l : List (Var × Value)) (t : Env),
      l.foldl (fun t p => (update t p.1 ((get t p.1).meet p.2)).1) t.bindings =
        (l.foldl (fun t p => t.set p.1 ((t.get p.1).meet p.2)) t).bindings := by
    intro l
    induction l with
    | nil => exact fun _ => rfl
    | cons p l ih =>
        intro t
        rw [List.foldl_cons, List.foldl_cons, update_bindings]
        exact ih _
  exact hfold _ target

theorem flow_bindings (n : Node) (e : Env) : flow n e.bindings = (Propagation.flow n e).bindings := by
  rw [flow, Propagation.flow, Env.ofList_toList]
  cases n.instr.target? with
  | none => rfl
  | some x =>
      by_cases hx : x.tracked = true
      · simp only [if_pos hx, update_bindings]
        rfl
      · simp only [if_neg hx]

end ValueMap

namespace Memory

variable {s : Memory} {es : List Env} {o o' : Nat} {m : ValueMap} {e : Env}

/-! ## Objects have maps of their own -/

/-- Every object has a map, and no two objects have the same one. -/
structure Apart (s : Memory) : Prop where
  nodup : s.objects.Nodup
  lt : ∀ i ∈ s.objects, i < s.maps.length

theorem Apart.make (h : s.Apart) (m : ValueMap) : (s.make m).Apart where
  nodup := by
    refine List.nodup_append.2 ⟨h.nodup, List.nodup_singleton _, fun i hi j hj hij => ?_⟩
    have hlt := h.lt i hi
    rw [hij, List.mem_singleton.1 hj] at hlt
    exact Nat.lt_irrefl _ hlt
  lt i hi := by
    simp only [Memory.make, List.mem_append, List.mem_singleton, List.length_append, List.length_singleton] at hi ⊢
    rcases hi with hi | rfl
    · exact Nat.lt_succ_of_lt (h.lt i hi)
    · exact Nat.lt_succ_self _

theorem Apart.write (h : s.Apart) (o : Nat) (m : ValueMap) : (s.write o m).Apart := by
  unfold Memory.write
  split
  · exact ⟨h.nodup, by simpa using h.lt⟩
  · exact h

theorem Apart.renew (h : s.Apart) (o : Nat) (m : ValueMap) : (s.renew o m).Apart where
  nodup := by
    refine h.nodup.set fun hmem => ?_
    exact Nat.lt_irrefl _ (h.lt _ hmem)
  lt i hi := by
    simp only [Memory.renew, List.length_append, List.length_singleton] at hi ⊢
    rcases List.mem_or_eq_of_mem_set hi with hi | rfl
    · exact Nat.lt_succ_of_lt (h.lt i hi)
    · exact Nat.lt_succ_self _

theorem map?_of_length_le (h : s.objects.length ≤ o) : s.map? o = none := by
  rw [map?, List.getElem?_eq_none h, Option.bind_none]

theorem Apart.exists_place (h : s.Apart) (ho : o < s.objects.length) :
    ∃ i, s.objects[o]? = some i ∧ i < s.maps.length :=
  ⟨s.objects[o], List.getElem?_eq_getElem ho, h.lt _ (List.getElem_mem ho)⟩

theorem Apart.place_ne (h : s.Apart) {i i' : Nat} (hi : s.objects[o]? = some i) (hi' : s.objects[o']? = some i')
    (hne : o' ≠ o) : i' ≠ i := by
  intro heq
  obtain ⟨ho, -⟩ := List.getElem?_eq_some_iff.1 hi'
  exact hne ((List.getElem?_inj ho h.nodup).1 (by rw [hi, hi', heq]))

theorem Apart.map?_make (h : s.Apart) (m : ValueMap) (o : Nat) :
    (s.make m).map? o = if o = s.objects.length then some m else s.map? o := by
  rcases Nat.lt_trichotomy o s.objects.length with ho | rfl | ho
  · obtain ⟨i, hi, hlt⟩ := h.exists_place ho
    rw [if_neg (Nat.ne_of_lt ho), map?, map?, Memory.make, List.getElem?_append_left ho, hi,
      Option.bind_some, Option.bind_some, List.getElem?_append_left hlt]
  · simp [map?, Memory.make]
  · rw [if_neg (Nat.ne_of_gt ho), map?_of_length_le (Nat.le_of_lt ho), map?_of_length_le]
    simpa [Memory.make, Nat.succ_le_iff] using ho

theorem Apart.map?_write (h : s.Apart) (ho : o < s.objects.length) (m : ValueMap) (o' : Nat) :
    (s.write o m).map? o' = if o' = o then some m else s.map? o' := by
  obtain ⟨i, hi, hlt⟩ := h.exists_place ho
  have hwrite : s.write o m = ⟨s.maps.set i m, s.objects⟩ := by rw [Memory.write, hi]
  rw [hwrite, map?, map?]
  split
  · next heq =>
      subst heq
      rw [hi, Option.bind_some, List.getElem?_set_self hlt]
  · next hne =>
      cases hi' : s.objects[o']? with
      | none => rfl
      | some i' =>
          rw [Option.bind_some, Option.bind_some, List.getElem?_set_ne (h.place_ne hi hi' hne).symm]

theorem Apart.map?_renew (h : s.Apart) (ho : o < s.objects.length) (m : ValueMap) (o' : Nat) :
    (s.renew o m).map? o' = if o' = o then some m else s.map? o' := by
  rw [map?, map?, Memory.renew]
  split
  · next heq =>
      subst heq
      rw [List.getElem?_set_self ho, Option.bind_some, List.getElem?_concat_length]
  · next hne =>
      rw [List.getElem?_set_ne (Ne.symm hne)]
      cases hi' : s.objects[o']? with
      | none => rfl
      | some i' =>
          have hlt : i' < s.maps.length := h.lt i' (List.mem_of_getElem? hi')
          rw [Option.bind_some, Option.bind_some, List.getElem?_append_left hlt]

/-! ## Objects hold environments -/

/-- What an operation does to environments that are no objects. -/
def Op.onEnvs (es : List Env) : Op → List Env × Answer
  | .make pairs => (es ++ [.ofList pairs], .made es.length)
  | .copy o =>
      match es[o]? with
      | some e => (es ++ [e], .made es.length)
      | none => (es, .unknown)
  | .update o x v =>
      match es[o]? with
      | some e => (es.set o (e.update x v).1, .changed (e.update x v).2)
      | none => (es, .unknown)
  | .remove o x =>
      match es[o]? with
      | some e => (es.set o (e.remove x).1, .removed (e.remove x).2)
      | none => (es, .unknown)
  | .assign o source =>
      match es[o]?, es[source]? with
      | some old, some new => (es.set o (old.assign new).1, .changed (old.assign new).2)
      | _, _ => (es, .unknown)
  | .merge source target =>
      match es[source]?, es[target]? with
      | some e, some e' => (es.set target (e.merge e'), .done)
      | _, _ => (es, .unknown)
  | .transfer n before after =>
      match es[before]?, es[after]? with
      | some e, some old =>
          (es.set after (old.assign (Propagation.flow n e)).1, .changed (old.assign (Propagation.flow n e)).2)
      | _, _ => (es, .unknown)

/-- The objects hold the bindings of the environments, each in a map of its own. -/
structure Represents (s : Memory) (es : List Env) : Prop where
  apart : s.Apart
  length : s.objects.length = es.length
  map? : ∀ o, s.map? o = es[o]?.map (·.bindings)

theorem Represents.make (h : s.Represents es) (e : Env) : (s.make e.bindings).Represents (es ++ [e]) where
  apart := h.apart.make _
  length := by simp [Memory.make, h.length]
  map? o := by
    rw [h.apart.map?_make, h.map?, h.length, List.getElem?_append]
    rcases Nat.lt_trichotomy o es.length with ho | rfl | ho
    · rw [if_neg (Nat.ne_of_lt ho), if_pos ho]
    · simp
    · have hnil : [e][o - es.length]? = none := List.getElem?_eq_none (by simp; omega)
      rw [if_neg (Nat.ne_of_gt ho), if_neg (Nat.not_lt_of_gt ho), hnil,
        List.getElem?_eq_none (Nat.le_of_lt ho)]

theorem map_getElem?_set (ho : o < es.length) (e : Env) (o' : Nat) :
    (es.set o e)[o']?.map (·.bindings) = if o' = o then some e.bindings else es[o']?.map (·.bindings) := by
  split
  · next heq =>
      subst heq
      rw [List.getElem?_set_self ho, Option.map_some]
  · next hne => rw [List.getElem?_set_ne (Ne.symm hne)]

theorem Represents.write (h : s.Represents es) (ho : o < es.length) (e : Env) :
    (s.write o e.bindings).Represents (es.set o e) where
  apart := h.apart.write _ _
  length := by
    unfold Memory.write
    split <;> simp [h.length]
  map? o' := by
    rw [h.apart.map?_write (h.length ▸ ho), h.map?, map_getElem?_set ho]

theorem Represents.renew (h : s.Represents es) (ho : o < es.length) (e : Env) :
    (s.renew o e.bindings).Represents (es.set o e) where
  apart := h.apart.renew _ _
  length := by simp [Memory.renew, h.length]
  map? o' := by
    rw [h.apart.map?_renew (h.length ▸ ho), h.map?, map_getElem?_set ho]

theorem Represents.replace (h : s.Represents es) {old : Env} (ho : es[o]? = some old) (new : Env) :
    (s.replace o old.bindings new.bindings).1.Represents (es.set o (old.assign new).1) ∧
      (s.replace o old.bindings new.bindings).2 = .changed (old.assign new).2 := by
  obtain ⟨hlt, heq⟩ := List.getElem?_eq_some_iff.1 ho
  cases hsame : old.same new with
  | true =>
      have hmaps : ValueMap.same old.bindings new.bindings = true := hsame
      have hset : es.set o old = es := by rw [← heq, List.set_getElem_self]
      rw [Memory.replace, if_pos hmaps, Env.assign, if_pos hsame, hset]
      exact ⟨h, rfl⟩
  | false =>
      have hne : ¬ old.same new = true := by rw [hsame]; exact Bool.false_ne_true
      have hmaps : ¬ ValueMap.same old.bindings new.bindings = true := hne
      rw [Memory.replace, if_neg hmaps, Env.assign, if_neg hne]
      exact ⟨h.renew hlt new, rfl⟩

/-- An operation does to the objects what it does to the environments, and answers alike. -/
theorem Represents.step (h : s.Represents es) (op : Op) :
    (s.step op).1.Represents (op.onEnvs es).1 ∧ (s.step op).2 = (op.onEnvs es).2 := by
  cases op with
  | make pairs =>
      rw [Memory.step, ValueMap.ofList_eq, h.length]
      exact ⟨h.make _, rfl⟩
  | copy o =>
      simp only [Memory.step, Op.onEnvs, h.map?, h.length]
      cases es[o]? with
      | none => exact ⟨h, rfl⟩
      | some e => exact ⟨h.make e, rfl⟩
  | update o x v =>
      simp only [Memory.step, Op.onEnvs, h.map?]
      cases ho : es[o]? with
      | none => exact ⟨h, rfl⟩
      | some e =>
          simp only [Option.map_some, ValueMap.update_bindings]
          exact ⟨h.write (List.getElem?_eq_some_iff.1 ho).1 _, trivial⟩
  | remove o x =>
      simp only [Memory.step, Op.onEnvs, h.map?]
      cases ho : es[o]? with
      | none => exact ⟨h, rfl⟩
      | some e => exact ⟨h.write (List.getElem?_eq_some_iff.1 ho).1 (e.erase x), rfl⟩
  | assign o source =>
      simp only [Memory.step, Op.onEnvs, h.map?]
      cases ho : es[o]? with
      | none => exact ⟨h, rfl⟩
      | some old =>
          cases es[source]? with
          | none => exact ⟨h, rfl⟩
          | some new => exact h.replace ho new
  | merge source target =>
      simp only [Memory.step, Op.onEnvs, h.map?]
      cases es[source]? with
      | none => exact ⟨h, rfl⟩
      | some e =>
          cases ho : es[target]? with
          | none => exact ⟨h, rfl⟩
          | some e' =>
              simp only [Option.map_some, ValueMap.merge_bindings]
              exact ⟨h.write (List.getElem?_eq_some_iff.1 ho).1 _, trivial⟩
  | transfer n before after =>
      simp only [Memory.step, Op.onEnvs, h.map?]
      cases es[before]? with
      | none => exact ⟨h, rfl⟩
      | some e =>
          cases ho : es[after]? with
          | none => exact ⟨h, rfl⟩
          | some old =>
              simp only [Option.map_some, ValueMap.flow_bindings]
              exact h.replace ho _

theorem represents_empty : Memory.empty.Represents [] where
  apart := ⟨List.nodup_nil, nofun⟩
  length := rfl
  map? _ := rfl

/-- The environments after the operations, from none. -/
def envsAfter (ops : List Op) : List Env := ops.foldl (fun es op => (op.onEnvs es).1) []

theorem represents_run (ops : List Op) : (run ops).Represents (envsAfter ops) := by
  have hfold : ∀ s es, Represents s es →
      Represents (ops.foldl (fun s op => (s.step op).1) s) (ops.foldl (fun es op => (op.onEnvs es).1) es) := by
    induction ops with
    | nil => exact fun _ _ h => h
    | cons op ops ih => exact fun _ _ h => ih _ _ (h.step op).1
  exact hfold _ _ represents_empty

/-! ## What an operation does to environments -/

/-- What an operation can do: nothing where an object is missing, make an environment, or replace the one that it
writes and, if it reports, tell whether a look-up changed. -/
inductive Op.Effect (op : Op) (es : List Env) : List Env × Answer → Prop where
  | missing (hmissing : ∃ o ∈ op.objects, es.length ≤ o) : Effect op es (es, .unknown)
  | made {e : Env} (hpresent : ∀ o ∈ op.objects, o < es.length) (hreported : op.reported? = none) :
      Effect op es (es ++ [e], .made es.length)
  | written {o : Nat} {old new : Env} {answer : Answer} (hpresent : ∀ o ∈ op.objects, o < es.length)
      (hwritten : op.written? = some o) (ho : es[o]? = some old) (hanswer : answer ≠ .unknown)
      (hreported : op.reported? ≠ none →
        ∃ b, answer = .changed b ∧ (b = true ↔ ∃ x, new.get x ≠ old.get x)) :
      Effect op es (es.set o new, answer)

theorem missing_of_getElem? {objects : List Nat} (hmem : o ∈ objects) (ho : es[o]? = none) :
    ∃ o ∈ objects, es.length ≤ o := ⟨o, hmem, List.getElem?_eq_none_iff.1 ho⟩

theorem present_one (ho : es[o]? = some e) : ∀ i ∈ [o], i < es.length := by
  simpa using (List.getElem?_eq_some_iff.1 ho).1

theorem present_two {e' : Env} (ho : es[o]? = some e) (ho' : es[o']? = some e') : ∀ i ∈ [o, o'], i < es.length := by
  simpa using ⟨(List.getElem?_eq_some_iff.1 ho).1, (List.getElem?_eq_some_iff.1 ho').1⟩

theorem Op.effect (op : Op) (es : List Env) : op.Effect es (op.onEnvs es) := by
  cases op with
  | make pairs => exact .made (fun _ hi => absurd hi List.not_mem_nil) rfl
  | copy o =>
      rw [Op.onEnvs]
      cases ho : es[o]? with
      | none => exact .missing (missing_of_getElem? (List.mem_singleton_self o) ho)
      | some e => exact .made (present_one ho) rfl
  | update o x v =>
      rw [Op.onEnvs]
      cases ho : es[o]? with
      | none => exact .missing (missing_of_getElem? (List.mem_singleton_self o) ho)
      | some e => exact .written (present_one ho) rfl ho (by simp) fun _ => ⟨_, rfl, Env.update_changed_iff e x v⟩
  | remove o x =>
      rw [Op.onEnvs]
      cases ho : es[o]? with
      | none => exact .missing (missing_of_getElem? (List.mem_singleton_self o) ho)
      | some e => exact .written (present_one ho) rfl ho (by simp) fun hreported => absurd rfl hreported
  | assign o source =>
      rw [Op.onEnvs]
      cases ho : es[o]? with
      | none => exact .missing (missing_of_getElem? (by simp [Op.objects]) ho)
      | some old =>
          cases hsource : es[source]? with
          | none => exact .missing (missing_of_getElem? (by simp [Op.objects]) hsource)
          | some new =>
              exact .written (present_two ho hsource) rfl ho (by simp) fun _ =>
                ⟨_, rfl, Env.assign_changed_iff old new⟩
  | merge source target =>
      rw [Op.onEnvs]
      cases hsource : es[source]? with
      | none => exact .missing (missing_of_getElem? (by simp [Op.objects]) hsource)
      | some e =>
          cases ho : es[target]? with
          | none => exact .missing (missing_of_getElem? (by simp [Op.objects]) ho)
          | some e' =>
              exact .written (present_two hsource ho) rfl ho (by simp) fun hreported => absurd rfl hreported
  | transfer n before after =>
      rw [Op.onEnvs]
      cases hbefore : es[before]? with
      | none => exact .missing (missing_of_getElem? (by simp [Op.objects]) hbefore)
      | some e =>
          cases ho : es[after]? with
          | none => exact .missing (missing_of_getElem? (by simp [Op.objects]) ho)
          | some old =>
              exact .written (present_two hbefore ho) rfl ho (by simp) fun _ =>
                ⟨_, rfl, Env.assign_changed_iff old _⟩

variable {op : Op} {r : List Env × Answer}

theorem Op.Effect.unknown_iff (h : op.Effect es r) : r.2 = .unknown ↔ ∃ o ∈ op.objects, es.length ≤ o := by
  cases h with
  | missing hmissing => exact iff_of_true rfl hmissing
  | made hpresent =>
      exact iff_of_false nofun fun ⟨o, ho, hle⟩ => Nat.not_lt_of_le hle (hpresent o ho)
  | written hpresent _ _ hanswer =>
      exact iff_of_false hanswer fun ⟨o, ho, hle⟩ => Nat.not_lt_of_le hle (hpresent o ho)

theorem Op.Effect.frame (h : op.Effect es r) (ho : o < es.length) (hwritten : op.written? ≠ some o) :
    r.1[o]? = es[o]? := by
  cases h with
  | missing => rfl
  | made => exact List.getElem?_append_left ho
  | written _ hw => exact List.getElem?_set_ne (by rintro rfl; exact hwritten hw)

theorem Op.written?_of_reported? (h : op.reported? = some o) : op.written? = some o := by
  cases op <;> first | exact h | cases h

theorem Op.Effect.changed (h : op.Effect es r) (hreported : op.reported? = some o)
    (hpresent : ∀ i ∈ op.objects, i < es.length) :
    ∃ b old new, r.2 = .changed b ∧ es[o]? = some old ∧ r.1[o]? = some new ∧
      (b = true ↔ ∃ x, new.get x ≠ old.get x) := by
  have hwritten := Op.written?_of_reported? hreported
  cases h with
  | missing hmissing =>
      obtain ⟨i, hi, hle⟩ := hmissing
      exact absurd (hpresent i hi) (Nat.not_lt_of_le hle)
  | made _ hnone => cases hnone.symm.trans hreported
  | written _ hw hold _ hchanged =>
      cases hw.symm.trans hwritten
      obtain ⟨b, hb, hiff⟩ := hchanged (by rw [hreported]; exact Option.some_ne_none o)
      exact ⟨b, _, _, hb, hold, List.getElem?_set_self (List.getElem?_eq_some_iff.1 hold).1, hiff⟩

/-! ## The contents are canonical -/

/-- Of an object there is nothing to see but its look-ups, and an operation writes one object and tells whether its
look-ups changed. -/
structure Canonical (s : Memory) : Prop where
  /-- The map of an object binds no variable twice and none to `undef`. -/
  map? : ∀ o < s.objects.length, ∃ m, s.map? o = some m ∧ m.keys.Nodup ∧ ∀ p ∈ m.toList, p.2 ≠ .undef
  same_iff : ∀ o o' m m', s.map? o = some m → s.map? o' = some m' →
    (m.same m' = true ↔ ∀ x, m.get x = m'.get x)
  unknown_iff : ∀ op, (s.step op).2 = .unknown ↔ ∃ o ∈ op.objects, s.objects.length ≤ o
  frame : ∀ op, ∀ o < s.objects.length, op.written? ≠ some o → (s.step op).1.map? o = s.map? o
  changed : ∀ op o, op.reported? = some o → (∀ i ∈ op.objects, i < s.objects.length) →
    ∃ b, (s.step op).2 = .changed b ∧ (b = true ↔ ∃ x, (s.step op).1.get? o x ≠ s.get? o x)

theorem Represents.map?_eq_some (h : s.Represents es) (hm : s.map? o = some m) : ∃ e : Env, e.bindings = m := by
  rw [h.map?, Option.map_eq_some_iff] at hm
  obtain ⟨e, -, he⟩ := hm
  exact ⟨e, he⟩

theorem Represents.get? (h : s.Represents es) (ho : es[o]? = some e) (x : Var) : s.get? o x = some (e.get x) := by
  rw [Memory.get?, h.map?, ho]
  rfl

theorem Represents.canonical (h : s.Represents es) : s.Canonical where
  map? o ho := by
    have he := List.getElem?_eq_getElem (h.length ▸ ho : o < es.length)
    exact ⟨_, by rw [h.map?, he]; rfl, OrderedMap.nodup _, Env.defined _⟩
  same_iff o o' m m' hm hm' := by
    obtain ⟨e, rfl⟩ := h.map?_eq_some hm
    obtain ⟨e', rfl⟩ := h.map?_eq_some hm'
    exact Env.same_iff
  unknown_iff op := by rw [(h.step op).2, h.length, (op.effect es).unknown_iff]
  frame op o ho hwritten := by
    rw [(h.step op).1.map?, (op.effect es).frame (h.length ▸ ho) hwritten, h.map?]
  changed op o hreported hpresent := by
    obtain ⟨b, old, new, hb, hold, hnew, hiff⟩ := (op.effect es).changed hreported (h.length ▸ hpresent)
    refine ⟨b, (h.step op).2.trans hb, hiff.trans (exists_congr fun x => ?_)⟩
    rw [(h.step op).1.get? hnew, h.get? hold, Ne, Ne, Option.some_inj]

/-- However objects were made, copied and written, with whatever values, their contents are canonical. They are the
environments that the same operations make of environments that share nothing, and further operations answer as
they do on those. -/
theorem run_canonical (ops : List Op) :
    (run ops).Canonical ∧ (run ops).Represents (envsAfter ops) ∧
      ∀ op, ((run ops).step op).2 = (op.onEnvs (envsAfter ops)).2 :=
  have h := represents_run ops
  ⟨h.canonical, h, fun op => (h.step op).2⟩

/-- An object and a copy of it in which one variable was dropped and bound again, merged into itself and carried over
an assignment of what it holds. -/
def crossed : List Op :=
  let x : Var := ⟨"x", .prim .int⟩
  let y : Var := ⟨"y", .prim .int⟩
  [.make [(x, .undef), (y, .const 4294967296), (x, .nac)], .copy 0, .update 1 y .undef,
    .update 1 y (.const 4294967296), .merge 1 1, .transfer (.stmt ⟨0, .assign x (.var x)⟩) 1 1]

theorem run_canonical_crossed :
    let x : Var := ⟨"x", .prim .int⟩
    let y : Var := ⟨"y", .prim .int⟩
    let s := run crossed
    (∃ m m', s.map? 0 = some m ∧ s.map? 1 = some m' ∧ m.keys = [y, x] ∧ m'.keys = [x, y] ∧
      ∀ z, m.get z = m'.get z) ∧
    (∀ z, (s.step (.assign 0 1)).1.get? 0 z = s.get? 0 z) ∧
    (s.step (.update 0 y (.const 0))).1.map? 1 = s.map? 1 ∧
    (∃ z, (s.step (.update 0 y (.const 0))).1.get? 0 z ≠ s.get? 0 z) ∧
    (s.step (.merge 0 2)).2 = .unknown := by
  intro x y s
  obtain ⟨h, -, -⟩ := run_canonical crossed
  refine ⟨⟨_, _, rfl, rfl, by decide, by decide, (h.same_iff 0 1 _ _ rfl rfl).1 (by decide)⟩, ?_,
    h.frame _ 1 (by decide) (by decide), ?_, (h.unknown_iff _).2 ⟨2, by decide, by decide⟩⟩
  · obtain ⟨b, hb, hchanged⟩ := h.changed (.assign 0 1) 0 rfl (by decide)
    have hfalse : b = false := Answer.changed.inj (hb.symm.trans (by decide))
    intro z
    by_contra hne
    exact Bool.false_ne_true (hfalse.symm.trans (hchanged.2 ⟨z, hne⟩))
  · obtain ⟨b, hb, hchanged⟩ := h.changed (.update 0 y (.const 0)) 0 rfl (by decide)
    exact hchanged.1 (Answer.changed.inj (hb.symm.trans (by decide)))

end Memory

end Dataflow
