import Dataflow.Proofs.Command.AllOrNothing
import Dataflow.Proofs.Method.Positions
import Dataflow.Proofs.Propagation.Solving
import Dataflow.Proofs.Worklist.Limit

/-!
# Exit codes

Which inputs an analysis answers with which exit code, and which it gives no code for.
-/

namespace Dataflow

open Propagation Worklist

/-! ## Methods that fail -/

namespace Method

variable {m : Method} {g : Graph Node} {limit : Option Int}

/-- Some jump leads to no label. -/
def Dangles (m : Method) : Prop := ∃ s ∈ m.body, ∃ l, s.instr.jump? = some l ∧ ¬m.HasLabel l

/-- Solving without a limit makes more visits than the limit allows. -/
def Overruns (m : Method) (limit : Option Int) : Prop :=
  ∃ g, m.graph = .ok g ∧ ∃ most ∈ limit, most < (solve (problem m) g none).visits.length

theorem dangles_iff : m.Dangles ↔ ∃ e, m.graph = .error e := by
  have hgraph := m.exists_graph_iff
  simp only [exists_label?_iff] at hgraph
  constructor
  · rintro ⟨s, hs, l, hl, hnot⟩
    cases hm : m.graph with
    | error e => exact ⟨e, rfl⟩
    | ok g => exact absurd (hgraph.1 ⟨g, hm⟩ s hs l hl) hnot
  · rintro ⟨e, he⟩
    by_contra hnot
    obtain ⟨g, hg⟩ := hgraph.2 fun s hs l hl => by_contra fun h => hnot ⟨s, hs, l, hl, h⟩
    rw [hg] at he
    cases he

theorem exists_ne_entry (hg : m.graph = .ok g) : ∃ n ∈ g.nodes, n ≠ g.entry := by
  refine ⟨_, nodeAt_mem_nodes hg m.body.length, ?_⟩
  rw [entry_of_graph hg]
  simp [nodeAt]

theorem solve_error_eq_none (hg : m.graph = .ok g) :
    (solve (problem m) g limit).error = none ↔
      ∀ most ∈ limit, ((solve (problem m) g none).visits.length : Int) ≤ most := by
  have hsolve : ∀ limit, (solve (problem m) g limit).error =
        (resumeForward (problem m) g limit (startForward (problem m) g)).error ∧
      (solve (problem m) g limit).visits =
        (resumeForward (problem m) g limit (startForward (problem m) g)).visits := fun limit => by
    rw [solve_of_forward rfl]
    simp only
    split <;> exact ⟨rfl, rfl⟩
  have hs := holds_startForward (p := problem m) (g := g)
  have hends := terminates m hs
  have hpos := visits_pos hs hends (exists_ne_entry hg)
  obtain ⟨vs, s', -, -, hwhole⟩ := resumeForward_none hs hends
  rw [(hsolve limit).1, (hsolve none).2]
  constructor
  · intro h most hmost
    have hle := (resumeForward_eq_of_error hs hends h).2 most hmost
    omega
  · intro h
    cases limit with
    | none => rw [hwhole]
    | some most =>
        have hle := h most rfl
        rw [resumeForward_of_le hs hends (by omega), hwhole]

theorem overruns_iff (hg : m.graph = .ok g) :
    m.Overruns limit ↔ (solve (problem m) g limit).error ≠ none := by
  rw [ne_eq, solve_error_eq_none hg, Overruns]
  simp [hg]

/-- Either makes a run on the method fail. -/
def Fails (m : Method) (limit : Option Int) : Prop := m.Dangles ∨ m.Overruns limit

end Method

/-! ## Runs that fail -/

section Runs

variable {m : Method} {s : Selection} {limit : Option Int} {e : RunError}

theorem runMethod_initial (m : Method) (limit : Option Int) (hid : s.id = "constprop") :
    (∃ r, (runMethod .initial m s limit).2 = .ok r) ∧ ¬m.Fails limit ∨
      (∃ e, (runMethod .initial m s limit).2 = .error (.missingLabel e)) ∧ m.Dangles ∨
      (∃ e, (runMethod .initial m s limit).2 = .error (.solve e)) ∧ ¬m.Dangles ∧ m.Overruns limit := by
  have hfind := Registry.find_initial.2 ⟨hid, rfl⟩
  cases hg : m.graph with
  | error e =>
      refine .inr (.inl ⟨⟨e, ?_⟩, m.dangles_iff.2 ⟨e, hg⟩⟩)
      simp only [runMethod, hfind, hg]
  | ok g =>
      have hdangles : ¬m.Dangles := fun h => by
        obtain ⟨e, he⟩ := m.dangles_iff.1 h
        rw [hg] at he
        cases he
      have hproblem : (Analysis.constants "ConstantPropagation" "constprop").problem m = problem m := rfl
      cases herror : (solve (problem m) g limit).error with
      | none =>
          refine .inl ⟨⟨_, runMethod_eq_ok.2 ⟨hid, g, hg, herror, rfl⟩⟩, ?_⟩
          rintro (h | h)
          · exact hdangles h
          · exact (Method.overruns_iff hg).1 h herror
      | some e =>
          refine .inr (.inr ⟨⟨e, ?_⟩, hdangles, (Method.overruns_iff hg).2 (by simp [herror])⟩)
          simp only [runMethod, hfind, hg, hproblem, herror]

theorem exists_report_iff (hid : s.id = "constprop") :
    (∃ r, (runMethod .initial m s limit).2 = .ok r) ↔ ¬m.Fails limit := by
  obtain ⟨hr, h⟩ | ⟨⟨e, he⟩, h⟩ | ⟨⟨e, he⟩, -, h⟩ := runMethod_initial m limit hid
  · exact iff_of_true hr h
  · exact iff_of_false (by simp [he]) (not_not.2 (.inl h))
  · exact iff_of_false (by simp [he]) (not_not.2 (.inr h))

theorem exitCode_of_error (hid : s.id = "constprop") (he : (runMethod .initial m s limit).2 = .error e) :
    Answer.exitCode e = 2 ∧ m.Dangles ∨ Answer.exitCode e = 1 ∧ ¬m.Dangles ∧ m.Overruns limit := by
  obtain ⟨⟨r, hr⟩, -⟩ | ⟨⟨e', he'⟩, h⟩ | ⟨⟨e', he'⟩, h⟩ := runMethod_initial m limit hid
  · rw [he] at hr
    cases hr
  · rw [he] at he'
    cases he'
    exact .inl ⟨rfl, h⟩
  · rw [he] at he'
    cases he'
    exact .inr ⟨rfl, h⟩

theorem fails_of_error (hid : s.id = "constprop") (he : (runMethod .initial m s limit).2 = .error e) :
    m.Fails limit := by
  obtain ⟨-, h⟩ | ⟨-, -, h⟩ := exitCode_of_error hid he
  · exact .inl h
  · exact .inr h

theorem runMethod_of_unknown {registry : Registry} {e : RegistryError} (h : registry.find s.id = .error e) :
    (runMethod registry m s limit).2 = .error (.registry e) := by
  simp only [runMethod, h]

end Runs

/-- What fails first in a list is determined. -/
theorem eq_of_first {α : Type} {p : α → Prop} {l₁ l₂ k₁ k₂ : List α} {a b : α}
    (h : l₁ ++ a :: l₂ = k₁ ++ b :: k₂) (hl : ∀ x ∈ l₁, ¬p x) (ha : p a) (hk : ∀ x ∈ k₁, ¬p x) (hb : p b) :
    a = b := by
  induction l₁ generalizing k₁ with
  | nil =>
      cases k₁ with
      | nil => exact (List.cons.inj h).1
      | cons c k₁ =>
          obtain ⟨rfl, -⟩ := List.cons.inj h
          exact absurd ha (hk a List.mem_cons_self)
  | cons c l₁ ih =>
      cases k₁ with
      | nil =>
          obtain ⟨rfl, -⟩ := List.cons.inj h
          exact absurd hb (hl c List.mem_cons_self)
      | cons d k₁ =>
          exact ih (List.cons.inj h).2 (fun x hx => hl x (List.mem_cons_of_mem c hx))
            fun x hx => hk x (List.mem_cons_of_mem d hx)

/-! ## Answers -/

namespace Answer

variable {read : Form.Reader} {registry : Registry} {text : String} {format : Format} {limit : Option Int}
  {s : Selection} {m : Method} {ms : List Method} {path : String} {content : List UInt8}

/-- The methods that are run as long as none fails. A report as text with an option that is too long to be
written ends the work at the first. -/
def examined (format : Format) (s : Selection) (ms : List Method) : List Method :=
  if format = .text ∧ s.fits = false then ms.take 1 else ms

theorem mem_of_mem_examined (h : m ∈ examined format s ms) : m ∈ ms := by
  unfold examined at h
  split at h
  · exact List.mem_of_mem_take h
  · exact h

theorem exit_ofAnalysis (read : Form.Reader) (registry : Registry) (format : Format) (limit : Option Int)
    (path : String) (hs : Selection.parse text = .ok s) (hms : methodsOf read content = .ok ms) :
    (∃ before m after e, examined format s ms = before ++ m :: after ∧
      (∀ b ∈ before, ∃ r, (runMethod registry b s limit).2 = .ok r) ∧
      (runMethod registry m s limit).2 = .error e ∧
      (ofAnalysis read registry (.ok text) format (.ok limit) (.ok (.bytes path content))).exit =
        .ok (exitCode e)) ∨
    (∀ m ∈ examined format s ms, ∃ r, (runMethod registry m s limit).2 = .ok r) ∧
      (ofAnalysis read registry (.ok text) format (.ok limit) (.ok (.bytes path content))).exit =
        if ms = [] ∨ s.fits = true then .ok 0 else .error .tooManyDigits := by
  simp only [ofAnalysis, Except.map, hs, load_bytes hms, examined]
  by_cases hw : format = .text ∧ s.fits = false
  · obtain ⟨rfl, hfits⟩ := hw
    cases ms with
    | nil => exact .inr ⟨by simp, by simp [reports]⟩
    | cons m ms =>
        cases hm : (runMethod registry m s limit).2 with
        | error e => exact .inl ⟨[], m, [], e, by simp [hfits], by simp, hm,
            by simp [reports, report_error hm, refuse]⟩
        | ok r => exact .inr ⟨by simp [hfits, hm],
            by simp [reports, report_of_not_fits hfits hm, broken, hfits]⟩
  · have hwritten : format = .text → s.fits = true := fun ht => by
      rw [← Bool.not_eq_false]
      exact fun hfits => hw ⟨ht, hfits⟩
    rw [if_neg hw]
    cases forall_ok_or_first_error (fun m => (runMethod registry m s limit).2) ms with
    | inl h =>
        obtain ⟨rs, hrs⟩ := h
        obtain ⟨events, hevents⟩ := reports_ok format hwritten hrs
        have hempty : rs.isEmpty = true ↔ ms = [] := by
          rw [List.isEmpty_iff, ← List.length_eq_zero_iff, ← hrs.length_eq, List.length_eq_zero_iff]
        have hall : ∀ m ∈ ms, ∃ r, (runMethod registry m s limit).2 = .ok r :=
          ((List.forall₂_and_left ms rs).1 (hrs.imp fun m r h => ⟨⟨r, h⟩, h⟩)).1
        refine .inr ⟨hall, ?_⟩
        simp only [hevents, Bool.or_eq_true, hempty]
        split <;> rfl
    | inr h =>
        obtain ⟨before, m, after, e, rfl, hbefore, he⟩ := h
        obtain ⟨events, hevents⟩ := reports_error format after hwritten hbefore he
        exact .inl ⟨before, m, after, e, rfl, hbefore, he, by simp [hevents, refuse]⟩

/-- Why an analysis answers that there is nothing to solve. -/
inductive Refused (read : Form.Reader) (text : String) (format : Format) (limit : Option Int)
    (content : List UInt8) : Prop
  | selection {e : SelectionError} : Selection.parse text = .error e → Refused read text format limit content
  | program {e : ProgramError} : methodsOf read content = .error e → Refused read text format limit content
  | analysis {s : Selection} {e : RegistryError} {m : Method} {ms : List Method} :
      Selection.parse text = .ok s → methodsOf read content = .ok (m :: ms) →
        Registry.initial.find s.id = .error e → Refused read text format limit content
  | label {s : Selection} {ms before : List Method} {m : Method} {after : List Method} :
      Selection.parse text = .ok s → methodsOf read content = .ok ms →
        examined format s ms = before ++ m :: after → (∀ b ∈ before, ¬b.Fails limit) → m.Dangles →
          Refused read text format limit content

theorem exit_of_unknown {e : RegistryError} (hs : Selection.parse text = .ok s)
    (hms : methodsOf read content = .ok ms) (hfind : registry.find s.id = .error e)
    (hm : m ∈ examined format s ms) :
    (ofAnalysis read registry (.ok text) format (.ok limit) (.ok (.bytes path content))).exit = .ok 2 := by
  obtain ⟨before, m', after, e', -, -, he', hexit⟩ | ⟨hall, -⟩ :=
    exit_ofAnalysis read registry format limit path hs hms
  · rw [runMethod_of_unknown hfind] at he'
    cases he'
    exact hexit
  · obtain ⟨r, hr⟩ := hall m hm
    rw [runMethod_of_unknown hfind] at hr
    cases hr

theorem exit_of_refused (h : Refused read text format limit content) :
    (ofAnalysis read .initial (.ok text) format (.ok limit) (.ok (.bytes path content))).exit = .ok 2 := by
  cases h with
  | selection hs => simp only [ofAnalysis, Except.map, hs, refuse]
  | program hms =>
      cases hs : Selection.parse text with
      | error e => simp only [ofAnalysis, Except.map, hs, refuse]
      | ok s => simp only [ofAnalysis, Except.map, hs, load, hms, refuse]
  | @analysis s e m ms hs hms hfind =>
      refine exit_of_unknown (m := m) hs hms hfind ?_
      unfold examined
      split <;> simp
  | @label s ms before m after hs hms hexamined hbefore hm =>
      have hmem : m ∈ examined format s ms := by simp [hexamined]
      cases hfind : Registry.initial.find s.id with
      | error e => exact exit_of_unknown hs hms hfind hmem
      | ok a =>
          have hid := (Registry.find_initial.1 hfind).1
          obtain ⟨before', m', after', e', hsplit, hbefore', he', hexit⟩ | ⟨hall, -⟩ :=
            exit_ofAnalysis read .initial format limit path hs hms
          · obtain rfl : m = m' := eq_of_first (p := fun m => m.Fails limit) (hexamined.symm.trans hsplit)
              hbefore (.inl hm) (fun b hb => (exists_report_iff hid).1 (hbefore' b hb))
              (fails_of_error hid he')
            obtain ⟨hcode, -⟩ | ⟨-, hnot, -⟩ := exitCode_of_error hid he'
            · rw [hexit, hcode]
            · exact absurd hm hnot
          · exact absurd (.inl hm) ((exists_report_iff hid).1 (hall m hmem))

/-- An answer to readable input that is not refused. -/
theorem exit_of_not_refused (path : String) (h : ¬Refused read text format limit content) :
    ∃ s ms, Selection.parse text = .ok s ∧ methodsOf read content = .ok ms ∧
      ((∃ m ∈ examined format s ms, m.Overruns limit) ∧
        (ofAnalysis read .initial (.ok text) format (.ok limit) (.ok (.bytes path content))).exit = .ok 1 ∨
      (∀ m ∈ examined format s ms, ¬m.Overruns limit) ∧
        (ofAnalysis read .initial (.ok text) format (.ok limit) (.ok (.bytes path content))).exit =
          if ms = [] ∨ s.fits = true then .ok 0 else .error .tooManyDigits) := by
  cases hs : Selection.parse text with
  | error e => exact absurd (.selection hs) h
  | ok s =>
      cases hms : methodsOf read content with
      | error e => exact absurd (.program hms) h
      | ok ms =>
          refine ⟨s, ms, rfl, rfl, ?_⟩
          have hknown : ∀ m ∈ examined format s ms, s.id = "constprop" := fun m hm => by
            cases hfind : Registry.initial.find s.id with
            | ok a => exact (Registry.find_initial.1 hfind).1
            | error e =>
                cases ms with
                | nil => exact absurd (mem_of_mem_examined hm) List.not_mem_nil
                | cons m ms => exact absurd (.analysis hs hms hfind) h
          obtain ⟨before, m, after, e, hsplit, hbefore, he, hexit⟩ | ⟨hall, hexit⟩ :=
            exit_ofAnalysis read .initial format limit path hs hms
          · have hmem : m ∈ examined format s ms := by simp [hsplit]
            have hid := hknown m hmem
            obtain ⟨-, hm⟩ | ⟨hcode, -, hm⟩ := exitCode_of_error hid he
            · exact absurd (.label hs hms hsplit (fun b hb => (exists_report_iff hid).1 (hbefore b hb)) hm) h
            · exact .inl ⟨⟨m, hmem, hm⟩, by rw [hexit, hcode]⟩
          · exact .inr ⟨fun m hm ho => (exists_report_iff (hknown m hm)).1 (hall m hm) (.inr ho), hexit⟩

/-- Some method that is run needs more visits than the limit allows. -/
def Overrun (read : Form.Reader) (text : String) (format : Format) (limit : Option Int)
    (content : List UInt8) : Prop :=
  ∃ s ms, Selection.parse text = .ok s ∧ methodsOf read content = .ok ms ∧
    ∃ m ∈ examined format s ms, m.Overruns limit

/-- There are methods, and an option that is too long to be written. -/
def Unwritable (read : Form.Reader) (text : String) (content : List UInt8) : Prop :=
  ∃ s ms, Selection.parse text = .ok s ∧ methodsOf read content = .ok ms ∧ ms ≠ [] ∧ s.fits = false

end Answer

namespace Place

open Answer

theorem exists_run_of_put {place : Place} (read : Form.Reader) (registry : Registry) {args : List String}
    {i : Invocation} {dest : Option String} (hargs : Invocation.parse args = .ok i)
    (hdest : i.command.output? = .ok dest) (hput : ∀ t, ∃ shown, (place.put (.ok dest) t).2 = .ok shown) :
    ∃ output files, place.run registry args read = .answered i.verbosity
      (i.command.answer read registry (place.source (i.command.file?.getD ""))) output files := by
  have hputs := puts_run read registry place hargs hdest
  generalize i.command.answer read registry (place.source (i.command.file?.getD "")) = answer at hputs
  generalize place.run registry args read = finish at hputs
  cases hputs with
  | nothing | console | file => exact ⟨_, _, rfl⟩
  | unresolved hp =>
      obtain ⟨shown, hshown⟩ := hput ""
      simp only [put, hp] at hshown
      cases hshown
  | @unopened _ _ _ text _ _ _ hp hwrite _ =>
      obtain ⟨shown, hshown⟩ := hput text
      simp only [put, hp, hwrite] at hshown
      cases hshown

open Classical in
/-- Whatever reads the forms of files, the exit code of an analysis tells what is wrong with its input: it is
two if the selection or the file cannot be read, if there is a method and the analysis is unknown, and if the
first failure is a jump to a missing label, and else one if solving a method exceeds the limit. With an option
that is too long to be written there is no code for what is left. A run of the program has this answer if its
destination can be written. -/
theorem exit_analysis (read : Form.Reader) (text : String) (format : Format) (limit : Option Int) (path : String)
    (content : List UInt8) :
    let answer := ofAnalysis read .initial (.ok text) format (.ok limit) (.ok (.bytes path content))
    (answer.exit =
      if Refused read text format limit content then .ok 2
      else if Overrun read text format limit content then .ok 1
      else if Unwritable read text content then .error .tooManyDigits
      else .ok 0) ∧
    ∀ (place : Place) args verbosity file dest,
      Invocation.parse args = .ok ⟨verbosity, .analyze file (.ok text) format (.ok dest) (.ok limit)⟩ →
      place.source file = .ok (.bytes path content) →
      (∀ t, ∃ shown, (place.put (.ok (dest.filter (· ≠ "-"))) t).2 = .ok shown) →
        ∃ output files, place.run .initial args read = .answered verbosity answer output files := by
  intro answer
  constructor
  · by_cases h : Refused read text format limit content
    · rw [if_pos h]
      exact exit_of_refused h
    · rw [if_neg h]
      obtain ⟨s, ms, hs, hms, hexit⟩ := exit_of_not_refused path h
      have hover : Overrun read text format limit content ↔ ∃ m ∈ examined format s ms, m.Overruns limit := by
        simp [Overrun, hs, hms]
      have hlong : Unwritable read text content ↔ ms ≠ [] ∧ s.fits = false := by
        simp [Unwritable, hs, hms]
      obtain ⟨hsome, hexit⟩ | ⟨hnone, hexit⟩ := hexit
      · rw [if_pos (hover.2 hsome)]
        exact hexit
      · rw [if_neg fun ho => by
          obtain ⟨m, hm, hm'⟩ := hover.1 ho
          exact hnone m hm hm']
        refine hexit.trans ?_
        by_cases hu : ms ≠ [] ∧ s.fits = false
        · rw [if_pos (hlong.2 hu), if_neg (by simp [hu])]
        · rw [if_neg (hlong.not.2 hu)]
          rw [not_and_or, not_not, Bool.not_eq_false] at hu
          exact if_pos hu
  · intro place args verbosity file dest hargs hsource hput
    have hrun := exists_run_of_put read .initial hargs rfl hput
    simpa only [Command.file?, Option.getD_some, hsource, Command.answer] using hrun

/-- The second method of the file jumps to a label that is missing. -/
theorem exit_analysis_desk :
    Refused Form.readAll "constprop" .text none twoText.toUTF8.toList ∧
      ∃ answer output files, answer.exit = .ok 2 ∧
        desk.run .initial ["analyze", "two.tir"] = .answered 0 answer output files := by
  have hselection : (Selection.parse "constprop").toOption.map (·.fits) = some true := by decide +kernel
  have hmethods : (methodsOf Form.readAll twoText.toUTF8.toList).toOption.map id =
      some [⟨"a", [], [], []⟩, ⟨"b", [], [], [⟨0, .goto "x"⟩]⟩] := by decide +kernel
  obtain ⟨s, hs, hfits⟩ := exists_ok_of_toOption hselection
  obtain ⟨ms, hms, rfl⟩ := exists_ok_of_toOption hmethods
  have hrefused : Refused Form.readAll "constprop" .text none twoText.toUTF8.toList := by
    have hexamined : examined .text s [⟨"a", [], [], []⟩, ⟨"b", [], [], [⟨0, .goto "x"⟩]⟩] =
        [⟨"a", [], [], []⟩] ++ ⟨"b", [], [], [⟨0, .goto "x"⟩]⟩ :: [] := by
      simp only [examined, hfits]
      rfl
    refine .label hs hms hexamined ?_ ⟨⟨0, .goto "x"⟩, List.mem_singleton_self _, "x", rfl, ?_⟩
    · intro b hb
      rw [List.mem_singleton.1 hb]
      rintro (⟨r, hr, -⟩ | ⟨g, -, most, hmost, -⟩)
      · cases hr
      · cases hmost
    · rintro ⟨t, ht, hl⟩
      rw [List.mem_singleton.1 ht] at hl
      cases hl
  obtain ⟨hexit, hrun⟩ := exit_analysis Form.readAll "constprop" .text none "/two.tir" twoText.toUTF8.toList
  rw [if_pos hrefused] at hexit
  have hargs : Invocation.parse ["analyze", "two.tir"] =
      .ok ⟨0, .analyze "two.tir" (.ok "constprop") .text (.ok none) (.ok none)⟩ := rfl
  obtain ⟨output, files, hfinish⟩ := hrun desk _ _ _ _ hargs rfl fun t => ⟨_, rfl⟩
  exact ⟨hrefused, _, output, files, hexit, hfinish⟩

/-- An unknown analysis of a file without methods succeeds. -/
theorem exit_unknown_of_nil :
    ∃ s e, Selection.parse "nosuch" = .ok s ∧ Registry.initial.find s.id = .error e ∧
      (ofAnalysis Form.readAll .initial (.ok "nosuch") .text (.ok none)
        (.ok (.bytes "/p.tir" "(program)".toUTF8.toList))).exit = .ok 0 := by
  have hselection : (Selection.parse "nosuch").toOption.map (·.id) = some "nosuch" := by decide +kernel
  have hmethods : (methodsOf Form.readAll "(program)".toUTF8.toList).toOption.map (·.length) = some 0 := by
    decide +kernel
  obtain ⟨s, hs, hid⟩ := exists_ok_of_toOption hselection
  obtain ⟨ms, hms, hlength⟩ := exists_ok_of_toOption hmethods
  obtain rfl := List.length_eq_zero_iff.1 hlength
  cases hfind : Registry.initial.find s.id with
  | ok a =>
      rw [hid] at hfind
      exact absurd (Registry.find_initial.1 hfind).1 (by decide)
  | error e =>
      refine ⟨s, e, hs, hfind, ?_⟩
      simp only [ofAnalysis, Except.map, hs, load_bytes hms, reports]
      rfl

end Place

end Dataflow
