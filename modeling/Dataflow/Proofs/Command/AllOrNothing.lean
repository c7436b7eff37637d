import Dataflow.Proofs.Command.Writing
import Dataflow.Proofs.Run
import Dataflow.Proofs.Selection

/-!
# All or nothing

A command works on the methods of its file one after the other. Only if it succeeds on all of them does it
put a text anywhere, and this text is made of what it makes of each method alone. Otherwise the first method
on which it fails decides how it ends.
-/

namespace Dataflow

variable {read : Form.Reader} {registry : Registry} {format : Format} {s : Selection} {limit : Option Int} {m : Method}
  {ms before after : List Method} {path : String} {content : List UInt8}

/-! ## Answers -/

namespace Answer

variable {r : Report} {rs : List Report} {e : RunError}

theorem report_ok (hfits : format = .text → s.fits = true) (h : (runMethod registry m s limit).2 = .ok r) :
    report registry format s (.ok limit) m = ((runMethod registry m s limit).1, .ok r) := by
  have hwritten : ¬(format = .text ∧ ¬s.fits = true) := fun ⟨ht, hs⟩ => hs (hfits ht)
  simp only [report, Except.toOption, Option.getD_some, h, if_neg hwritten]

theorem report_error (h : (runMethod registry m s limit).2 = .error e) :
    report registry format s (.ok limit) m =
      ((runMethod registry m s limit).1, .error (.refused (exitCode e) (failure m e))) := by
  simp [report, Except.toOption, h]

theorem report_of_not_fits (hfits : s.fits = false) (h : (runMethod registry m s limit).2 = .ok r) :
    report registry .text s (.ok limit) m =
      ((runMethod registry m s limit).1, .error (.broken .tooManyDigits)) := by
  simp [report, Except.toOption, h, hfits]

theorem reports_ok (format : Format) (hfits : format = .text → s.fits = true)
    (h : List.Forall₂ (fun m r => (runMethod registry m s limit).2 = .ok r) ms rs) :
    ∃ events, reports registry format s (.ok limit) ms = (events, .ok rs) := by
  induction h with
  | nil => exact ⟨[], rfl⟩
  | cons hm _ ih =>
      obtain ⟨events, hrest⟩ := ih
      exact ⟨_, by rw [reports, report_ok hfits hm, hrest]; rfl⟩

theorem reports_error (format : Format) (after : List Method) (hfits : format = .text → s.fits = true)
    (hbefore : ∀ b ∈ before, ∃ r, (runMethod registry b s limit).2 = .ok r)
    (he : (runMethod registry m s limit).2 = .error e) :
    ∃ events, reports registry format s (.ok limit) (before ++ m :: after) =
      (events, .error (.refused (exitCode e) (failure m e))) := by
  induction before with
  | nil => exact ⟨_, by rw [List.nil_append, reports, report_error he]⟩
  | cons b before ih =>
      obtain ⟨⟨r, hr⟩, hrest⟩ := List.forall_mem_cons.1 hbefore
      obtain ⟨events, hevents⟩ := ih hrest
      exact ⟨_, by rw [List.cons_append, reports, report_ok hfits hr, hevents]; rfl⟩

theorem length_of_reports {limit : Except Fault (Option Int)} {events : List Event}
    (h : reports registry format s limit ms = (events, .ok rs)) : rs.length = ms.length := by
  induction ms generalizing events rs with
  | nil =>
      cases h
      rfl
  | cons m ms ih =>
      simp only [reports] at h
      split at h
      · cases h
      · next r _ =>
          cases hrest : reports registry format s limit ms with
          | mk more result =>
              rw [hrest] at h
              cases result with
              | error e => cases h
              | ok rs' =>
                  cases h
                  rw [List.length_cons, List.length_cons, ih hrest]

theorem load_bytes (h : methodsOf read content = .ok ms) :
    load read (.ok (.bytes path content)) = .ok ([.reading path, .parsed (ms.map (·.name))], ms) := by
  simp only [load, h]

/-- What is put out for the graph of a method. -/
def dotText (m : Method) : Except MissingLabel String :=
  m.graph.map fun g => g.dot m.labelling m.name ++ "\n"

theorem dotText_eq_ok {text : String} :
    dotText m = .ok text ↔ ∃ g, m.graph = .ok g ∧ g.dot m.labelling m.name ++ "\n" = text := by
  unfold dotText
  cases m.graph with
  | ok g => simp [Except.map]
  | error e => simp [Except.map]

theorem dotText_eq_error {e : MissingLabel} : dotText m = .error e ↔ m.graph = .error e := by
  unfold dotText
  cases m.graph with
  | ok g => simp [Except.map]
  | error e => simp [Except.map]

theorem dots_ok {texts : List String} (h : List.Forall₂ (fun m text => dotText m = .ok text) ms texts) :
    dots ms = .ok (String.join texts) := by
  induction h with
  | nil => rfl
  | cons hm _ ih =>
      obtain ⟨g, hg, rfl⟩ := dotText_eq_ok.1 hm
      simp only [dots, hg, ih, ok_bind, pure, Except.pure, String.join_cons]

theorem dots_error {e : MissingLabel} (hbefore : ∀ b ∈ before, ∃ text, dotText b = .ok text)
    (he : dotText m = .error e) : dots (before ++ m :: after) = .error e := by
  induction before with
  | nil =>
      rw [List.nil_append, dots, dotText_eq_error.1 he]
      rfl
  | cons b before ih =>
      obtain ⟨⟨text, htext⟩, hrest⟩ := List.forall_mem_cons.1 hbefore
      obtain ⟨g, hg, rfl⟩ := dotText_eq_ok.1 htext
      rw [List.cons_append, dots, hg, ok_bind, ih hrest]
      rfl

/-- What a command answers that makes results of the methods of its file, and a text of the results: a
failure on a method gives no text and has its own exit code. -/
inductive Outcome {E R : Type} (work : Method → Except E R) (code : E → Nat) (render : List R → String)
    (ms : List Method) : Answer → Prop
  | all {rs : List R} {events : List Event} :
      List.Forall₂ (fun m r => work m = .ok r) ms rs →
        Outcome work code render ms ⟨.ok 0, events, some (render rs)⟩
  | nothing {before : List Method} {m : Method} {after : List Method} {e : E} {events : List Event} :
      ms = before ++ m :: after → (∀ b ∈ before, ∃ r, work b = .ok r) → work m = .error e →
        Outcome work code render ms ⟨.ok (code e), events, none⟩

theorem ofAnalysis_ok (format : Format) (path : String) {text : String} (hs : Selection.parse text = .ok s)
    (hfits : s.fits = true) (hms : methodsOf read content = .ok ms)
    (hrs : List.Forall₂ (fun m r => (runMethod registry m s limit).2 = .ok r) ms rs) :
    ∃ events, ofAnalysis read registry (.ok text) format (.ok limit) (.ok (.bytes path content)) =
      ⟨.ok 0, events, some (render format rs)⟩ := by
  obtain ⟨events, hevents⟩ := reports_ok format (fun _ => hfits) hrs
  simp only [ofAnalysis, Except.map, hs, load_bytes hms, hevents, hfits, Bool.or_true, if_true]
  exact ⟨_, rfl⟩

theorem outcome_ofAnalysis {text : String} (hs : Selection.parse text = .ok s) (hfits : s.fits = true)
    (hms : methodsOf read content = .ok ms) :
    Outcome (fun m => (runMethod registry m s limit).2) exitCode (render format) ms
      (ofAnalysis read registry (.ok text) format (.ok limit) (.ok (.bytes path content))) := by
  cases forall_ok_or_first_error (fun m => (runMethod registry m s limit).2) ms with
  | inl h =>
      obtain ⟨rs, hrs⟩ := h
      obtain ⟨events, hanswer⟩ := ofAnalysis_ok format path hs hfits hms hrs
      rw [hanswer]
      exact .all hrs
  | inr h =>
      obtain ⟨before, m, after, e, rfl, hbefore, he⟩ := h
      obtain ⟨events, hevents⟩ := reports_error format after (fun _ => hfits) hbefore he
      simp only [ofAnalysis, Except.map, hs, load_bytes hms, hevents]
      exact .nothing rfl hbefore he

theorem outcome_ofGraphs (hms : methodsOf read content = .ok ms) :
    Outcome dotText (fun _ => 2) String.join ms (ofGraphs read (.ok (.bytes path content))) := by
  simp only [ofGraphs, load_bytes hms]
  cases forall_ok_or_first_error dotText ms with
  | inl h =>
      obtain ⟨texts, htexts⟩ := h
      rw [dots_ok htexts]
      exact .all htexts
  | inr h =>
      obtain ⟨before, m, after, e, rfl, hbefore, he⟩ := h
      rw [dots_error hbefore he]
      exact .nothing rfl hbefore he

/-- Only a file without methods gives a text then. -/
theorem text_eq_none_of_not_fits (read : Form.Reader) (registry : Registry) (format : Format)
    (limit : Option Int) (path : String) {text : String} (hs : Selection.parse text = .ok s)
    (hfits : s.fits = false) (hms : methodsOf read content = .ok ms) (hne : ms ≠ []) :
    (ofAnalysis read registry (.ok text) format (.ok limit) (.ok (.bytes path content))).text = none := by
  simp only [ofAnalysis, Except.map, hs, load_bytes hms]
  split
  · rfl
  · rfl
  · next rs hrs =>
      have hlength : rs.length = ms.length := length_of_reports hrs
      have hrs : rs.isEmpty = false := by
        cases rs with
        | nil => exact absurd (List.length_eq_zero_iff.1 hlength.symm) hne
        | cons r rs => rfl
      rw [hrs, hfits]
      rfl

theorem ofAnalysis_of_not_fits (path : String) {text : String} (hs : Selection.parse text = .ok s)
    (hfits : s.fits = false) (hms : methodsOf read content = .ok (m :: ms))
    (hm : (runMethod registry m s limit).2 = .ok r) :
    ∃ events, ofAnalysis read registry (.ok text) .text (.ok limit) (.ok (.bytes path content)) =
      broken events .tooManyDigits := by
  simp only [ofAnalysis, Except.map, hs, load_bytes hms, reports, report_of_not_fits hfits hm]
  exact ⟨_, rfl⟩

end Answer

/-! ## Where the text goes -/

namespace Place

/-- How a run ends that has an answer: the text goes to standard output or into one file, and nothing is
written if there is no text. With a path that stands for nothing there are no changes, and with a file that
cannot be opened only the directories above it may be new. -/
inductive Puts (place : Place) (verbosity : Nat) : Option String → Answer → Finish → Prop
  | nothing {dest : Option String} {exit : Except Fault Nat} {events : List Event} :
      Puts place verbosity dest ⟨exit, events, none⟩
        (.answered verbosity ⟨exit, events, none⟩ "" place.files)
  | console {exit : Except Fault Nat} {events : List Event} {text : String} :
      Puts place verbosity none ⟨exit, events, some text⟩
        (.answered verbosity ⟨exit, events, some text⟩ text place.files)
  | file {out : String} {exit : Except Fault Nat} {events : List Event} {text : String} {p : Path}
      {files : FileTree} :
      place.resolve out = .ok p → place.files.Writes p text.toUTF8.toList files →
        Puts place verbosity (some out) ⟨exit, events, some text⟩
          (.answered verbosity ⟨exit, events, some text⟩ "" files)
  | unresolved {out : String} {exit : Except Fault Nat} {events : List Event} {text : String} {f : Fault} :
      place.resolve out = .error f →
        Puts place verbosity (some out) ⟨exit, events, some text⟩
          (.answered verbosity (.broken events f) "" place.files)
  | unopened {out : String} {exit : Except Fault Nat} {events : List Event} {text : String} {f : Fault}
      {p : Path} {files : FileTree} :
      place.resolve out = .ok p → place.files.write p text.toUTF8.toList = (files, some f) →
        (∀ q, place.files.Keeps files p.dropLast q) →
          Puts place verbosity (some out) ⟨exit, events, some text⟩
            (.answered verbosity (.broken events f) "" files)

theorem puts_run (read : Form.Reader) (registry : Registry) (place : Place) {args : List String} {i : Invocation}
    {dest : Option String} (hargs : Invocation.parse args = .ok i) (hdest : i.command.output? = .ok dest) :
    place.Puts i.verbosity dest (i.command.answer read registry (place.source (i.command.file?.getD "")))
      (place.run registry args read) := by
  simp only [run, hargs, hdest]
  generalize i.command.answer read registry (place.source (i.command.file?.getD "")) = answer
  obtain ⟨exit, events, text⟩ := answer
  cases text with
  | none => exact .nothing
  | some text =>
      cases dest with
      | none => exact .console
      | some out =>
          cases hp : place.resolve out with
          | error f =>
              simp only [Option.map_some, put, hp]
              exact .unresolved hp
          | ok p =>
              cases hwrite : place.files.write p text.toUTF8.toList with
              | mk files fault? =>
                  simp only [Option.map_some, put, hp, hwrite]
                  cases fault? with
                  | none => exact .file hp (FileTree.writes_of_write hwrite)
                  | some f => exact .unopened hp hwrite (FileTree.keeps_of_write hwrite)

theorem run_of_text_eq_none {place : Place} {args : List String} {i : Invocation} {a : Answer}
    (hargs : Invocation.parse args = .ok i)
    (ha : i.command.answer read registry (place.source (i.command.file?.getD "")) = a) (hnone : a.text = none) :
    place.run registry args read = .answered i.verbosity a "" place.files := by
  simp only [run, hargs, ha, hnone, Option.map_none]

/-- Wherever a run with these arguments finds methods in the file, it has such an answer, and the text goes to
the destination. -/
def AllOrNothing {E R : Type} (read : Form.Reader) (registry : Registry) (args : List String) (verbosity : Nat)
    (file : String) (dest : Option String) (work : Method → Except E R) (code : E → Nat)
    (render : List R → String) : Prop :=
  ∀ (place : Place) path content ms, place.source file = .ok (.bytes path content) →
    Answer.methodsOf read content = .ok ms → ∃ answer, Answer.Outcome work code render ms answer ∧
      place.Puts verbosity dest answer (place.run registry args read)

/-! ## A place with files -/

def oneText : String := "(method m (body))"

def one : Method := ⟨"m", [], [], []⟩

def twoText : String := "(program (method a (body)) (method b (body (goto x))))"

/-- Has a file with one method, one with a method that has no graph after another, and an old result. -/
def desk : Place where
  files := .ofList [(["one.tir"], .file oneText.toUTF8.toList), (["two.tir"], .file twoText.toUTF8.toList),
    (["out"], .file "old".toUTF8.toList)]
  home _ := none
  current := []

theorem parse_analyze (text : String) (h : text.toList.head? ≠ some '-') :
    Invocation.parse ["analyze", "one.tir", "-a", text] =
      .ok ⟨0, .analyze "one.tir" (.ok text) .text (.ok none) (.ok none)⟩ := by
  have hrole : ∀ {O : Type} (g : Arguments.Grammar O), g.role? text = some .operand := fun g => if_pos h
  have hne : text ≠ "--" := by
    rintro rfl
    exact h rfl
  have hmain : Invocation.mainGrammar.roles? ["analyze", "one.tir", "-a", text] =
      some [("analyze", .operand), ("one.tir", .operand), ("-a", .unknownOption), (text, .operand)] := by
    have hword : Invocation.mainGrammar.role? "analyze" = some .operand := rfl
    have hfile : Invocation.mainGrammar.role? "one.tir" = some .operand := rfl
    have hoption : Invocation.mainGrammar.role? "-a" = some .unknownOption := rfl
    simp [Arguments.Grammar.roles?, hword, hfile, hoption, hrole, hne]
  have hanalyze : Invocation.analyzeGrammar.roles? ["one.tir", "-a", text] =
      some [("one.tir", .operand), ("-a", .option ['-', 'a'] .analysis none), (text, .operand)] := by
    have hfile : Invocation.analyzeGrammar.role? "one.tir" = some .operand := rfl
    have hoption : Invocation.analyzeGrammar.role? "-a" = some (.option ['-', 'a'] .analysis none) := rfl
    simp [Arguments.Grammar.roles?, hfile, hoption, hrole, hne]
  have hfields : Invocation.fields Invocation.analyzeGrammar ["one.tir", "-a", text] =
      .ok { Invocation.Fields.initial with file := some "one.tir", selection := .ok text } := by
    rw [Invocation.fields, Arguments.Grammar.parse?, hanalyze]
    rfl
  have hwords : Invocation.ofWords ["analyze", "one.tir", "-a", text] =
      .ok (.analyze "one.tir" (.ok text) .text (.ok none) (.ok none), false) := by
    simp only [Invocation.ofWords, hfields]
    rfl
  have hfound : Invocation.mainGrammar.parse? ["analyze", "one.tir", "-a", text] =
      some [.command ["analyze", "one.tir", "-a", text]] := by
    rw [Arguments.Grammar.parse?, hmain]
    rfl
  simp only [Invocation.parse, hfound, List.foldlM_cons, Invocation.Progress.add, hwords, ok_bind]
  rfl

theorem head?_powerText {n : Nat} : (Selection.powerText n).toList.head? ≠ some '-' := by
  rw [Selection.toList_powerText]
  exact nofun

theorem exists_report_one (hid : s.id = "constprop") : ∃ r, (runMethod .initial one s none).2 = .ok r := by
  have hsolve : ∃ g, one.graph = .ok g ∧ (Worklist.solve (Propagation.problem one) g none).error = none :=
    ⟨_, rfl, by decide +kernel⟩
  obtain ⟨g, hg, herror⟩ := hsolve
  exact ⟨_, runMethod_eq_ok.2 ⟨hid, g, hg, herror, rfl⟩⟩

/-! ## Runs -/

/-- Whatever reads the forms of files, analyses and graphs are put out for all methods of a file or for none.
What is made of a method does not depend on the file, so the text for all is made of the texts that files with
each method alone give. With an option that is too long to be written nothing is put out, although the work
on every method may succeed. -/
theorem run_allOrNothing :
    (∀ args verbosity file text format dest limit s,
      Invocation.parse args = .ok ⟨verbosity, .analyze file (.ok text) format (.ok dest) (.ok limit)⟩ →
      Selection.parse text = .ok s →
        (s.fits = true → AllOrNothing read registry args verbosity file (dest.filter (· ≠ "-"))
          (fun m => (runMethod registry m s limit).2) Answer.exitCode (Answer.render format)) ∧
        (s.fits = false → ∀ (place : Place) path content ms, place.source file = .ok (.bytes path content) →
          Answer.methodsOf read content = .ok ms → ms ≠ [] →
            ∃ answer, place.run registry args read = .answered verbosity answer "" place.files)) ∧
    (∀ args verbosity file dest, Invocation.parse args = .ok ⟨verbosity, .graphs file (.ok dest)⟩ →
      AllOrNothing read registry args verbosity file (dest.filter (· ≠ "-")) Answer.dotText (fun _ => 2)
        String.join) ∧
    (∀ rs, Answer.render .text rs = String.join (rs.map fun r => Answer.render .text [r])) ∧
    ∀ rs, Answer.render .json rs = (Json.object [("methods", .array (rs.map Report.json))]).text ++ "\n" := by
  refine ⟨fun args verbosity file text format dest limit s hargs hs => ⟨fun hfits => ?_, fun hfits => ?_⟩,
    fun args verbosity file dest hargs => ?_, fun rs => ?_, fun rs => rfl⟩
  · intro place path content ms hsource hms
    have hputs := puts_run read registry place hargs rfl
    simp only [Command.file?, Option.getD_some, hsource, Command.answer] at hputs
    exact ⟨_, Answer.outcome_ofAnalysis hs hfits hms, hputs⟩
  · intro place path content ms hsource hms hne
    have hnone := Answer.text_eq_none_of_not_fits read registry format limit path hs hfits hms hne
    exact ⟨_, run_of_text_eq_none hargs
      (by simp only [Command.file?, Option.getD_some, hsource, Command.answer]) hnone⟩
  · intro place path content ms hsource hms
    have hputs := puts_run read registry place hargs rfl
    simp only [Command.file?, Option.getD_some, hsource, Command.answer] at hputs
    exact ⟨_, Answer.outcome_ofGraphs hms, hputs⟩
  · simp [Answer.render]

set_option maxRecDepth 4000 in
theorem run_allOrNothing_desk :
    ∃ s ms, Selection.parse "constprop:k=7" = .ok s ∧ s.fits = true ∧
      Answer.methodsOf Form.readAll twoText.toUTF8.toList = .ok ms ∧ ms.length = 2 ∧
      (∃ answer, Answer.Outcome (fun m => (runMethod .initial m s none).2) Answer.exitCode (Answer.render .json)
          ms answer ∧ desk.Puts 0 (some "out") answer
            (desk.run .initial ["analyze", "two.tir", "-a", "constprop:k=7", "-fjson", "-o", "out"])) ∧
      (∃ answer, desk.run .initial ["analyze", "one.tir", "-a", Selection.powerText (36 * 100)] =
        .answered 0 answer "" desk.files) ∧
      ∃ answer, Answer.Outcome Answer.dotText (fun _ => 2) String.join ms answer ∧
        desk.Puts 1 none answer (desk.run .initial ["-v", "cfg", "two.tir"]) := by
  obtain ⟨hanalyze, hgraphs, -⟩ := @run_allOrNothing Form.readAll .initial
  have hselection : (Selection.parse "constprop:k=7").toOption.map (·.fits) = some true := by decide +kernel
  have hmethods : (Answer.methodsOf Form.readAll twoText.toUTF8.toList).toOption.map (·.length) = some 2 := by
    decide +kernel
  obtain ⟨s, hs, hfits⟩ := exists_ok_of_toOption hselection
  obtain ⟨ms, hms, hlength⟩ := exists_ok_of_toOption hmethods
  have hargs : Invocation.parse ["analyze", "two.tir", "-a", "constprop:k=7", "-fjson", "-o", "out"] =
      .ok ⟨0, .analyze "two.tir" (.ok "constprop:k=7") .json (.ok (some "out")) (.ok none)⟩ := rfl
  have hargs' : Invocation.parse ["-v", "cfg", "two.tir"] = .ok ⟨1, .graphs "two.tir" (.ok none)⟩ := rfl
  have hsource : desk.source "two.tir" = .ok (.bytes "/two.tir" twoText.toUTF8.toList) := rfl
  refine ⟨s, ms, hs, hfits, hms, hlength, ?_, ?_, ?_⟩
  · exact (hanalyze _ _ _ _ _ _ _ s hargs hs).1 hfits desk _ _ ms hsource hms
  · have hread : (Answer.methodsOf Form.readAll oneText.toUTF8.toList).toOption.map (·.isEmpty) = some false := by
      decide +kernel
    obtain ⟨ms, hms, hne⟩ := exists_ok_of_toOption hread
    have hpower : (Selection.power (36 * 100)).fits = false := Selection.not_fits_power (by decide)
    exact (hanalyze _ _ _ _ _ _ _ _ (parse_analyze _ head?_powerText) (Selection.parse_powerText _)).2 hpower
      desk "/one.tir" _ ms rfl hms (fun h => by rw [h] at hne; cases hne)
  · exact hgraphs _ _ _ _ hargs' desk _ _ ms hsource hms

/-- The run on the only method succeeds, but nothing is put out: not with an option that is too long to be
written, and not where the destination is a directory. -/
theorem run_desk_power :
    ∃ s r events, Selection.parse (Selection.powerText (36 * 100)) = .ok s ∧
      Invocation.parse ["analyze", "one.tir", "-a", Selection.powerText (36 * 100)] =
        .ok ⟨0, .analyze "one.tir" (.ok (Selection.powerText (36 * 100))) .text (.ok none) (.ok none)⟩ ∧
      desk.source "one.tir" = .ok (.bytes "/one.tir" oneText.toUTF8.toList) ∧
      Answer.methodsOf Form.readAll oneText.toUTF8.toList = .ok [one] ∧ (runMethod .initial one s none).2 = .ok r ∧
      desk.run .initial ["analyze", "one.tir", "-a", Selection.powerText (36 * 100)] =
        .answered 0 (.broken events .tooManyDigits) "" desk.files ∧
      ∃ events, desk.run .initial ["analyze", "one.tir", "-o", "/"] =
        .answered 0 (.broken events .isDirectory) "" desk.files := by
  have hs : Selection.parse (Selection.powerText (36 * 100)) = .ok (Selection.power (36 * 100)) :=
    Selection.parse_powerText (36 * 100)
  have hfits : (Selection.power (36 * 100)).fits = false := Selection.not_fits_power (by decide)
  have hargs := parse_analyze (Selection.powerText (36 * 100)) head?_powerText
  have hsource : desk.source "one.tir" = .ok (.bytes "/one.tir" oneText.toUTF8.toList) := rfl
  have hread : (Answer.methodsOf Form.readAll oneText.toUTF8.toList).toOption.map id = some [one] := by
    decide +kernel
  obtain ⟨ms, hms, rfl⟩ := exists_ok_of_toOption hread
  obtain ⟨r, hrun⟩ := exists_report_one (s := Selection.power (36 * 100)) rfl
  obtain ⟨events, hanswer⟩ := Answer.ofAnalysis_of_not_fits "/one.tir" hs hfits hms hrun
  refine ⟨_, r, events, hs, hargs, hsource, hms, hrun, run_of_text_eq_none hargs ?_ rfl, ?_⟩
  · simp only [Command.file?, Option.getD_some, hsource, Command.answer, hanswer]
  · have hread' : (Selection.parse "constprop").toOption.map (fun s => (s.id, s.fits)) =
        some ("constprop", true) := by decide +kernel
    obtain ⟨s, hs, hparsed⟩ := exists_ok_of_toOption hread'
    obtain ⟨hid, hfits⟩ := Prod.mk.inj hparsed
    obtain ⟨r, hrun⟩ := exists_report_one hid
    obtain ⟨events, hanswer⟩ := Answer.ofAnalysis_ok .text "/one.tir" hs hfits hms (.cons hrun .nil)
    have hargs : Invocation.parse ["analyze", "one.tir", "-o", "/"] =
        .ok ⟨0, .analyze "one.tir" (.ok "constprop") .text (.ok (some "/")) (.ok none)⟩ := rfl
    have hput : ∀ text, desk.put (Command.output? (.analyze "one.tir" (.ok "constprop") .text (.ok (some "/"))
        (.ok none))) text = (desk.files, .error .isDirectory) := fun text => rfl
    refine ⟨events, ?_⟩
    simp only [run, hargs, Command.file?, Option.getD_some, hsource, Command.answer, hanswer, Option.map_some, hput]

end Place

end Dataflow
