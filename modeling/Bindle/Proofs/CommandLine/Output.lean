import Bindle.Proofs.CommandLine.Precedence
import Bindle.Proofs.Label.RoundTrip

/-!
# One document or nothing

When results are shown as JSON, a command prints its result as one value and everything else on the
other channel. So it prints one document, or stops before it has a result and prints nothing. What
is printed is made of texts, truth values and natural numbers, whatever the texts hold: such a value
is written on one line, and the line is read as the value.

* `Report.Prints`: a report prints one document if something holds, and nothing otherwise.
* `prints_check`, `prints_listGroups`, `prints_listEdges`, `prints_resolve`: when each command does.
* `Command.FailsOpenly`: the failures that are printed as a document; `prints_runCommand` says that
  there are no others.
* `IsDocumentLine`: a text is one line, which is a document.
* `run_json`: the output of a run.
-/

namespace Bindle

/-! ## Reports -/

/-- The text is one line, and the line is a JSON document. -/
def IsDocumentLine (text : String) : Prop :=
  ∃ line j, text = line ++ "\n" ∧ '\n' ∉ line.toList ∧ Json.parse? line = some j

namespace Report

/-- The report prints one document without fractions if this holds, and nothing otherwise. -/
def Prints (r : Report) (P : Prop) : Prop :=
  P ∧ (∃ j : Json, j.IsIntegral ∧ r.out = [j.toText]) ∨ ¬P ∧ r.out = []

variable {r s : Report} {P Q : Prop}

theorem Prints.congr (h : r.Prints P) (hiff : P ↔ Q) : r.Prints Q := by
  rwa [Prints, ← hiff]

theorem prints_append_right (hr : r.out = []) (hs : s.Prints P) : (r ++ s).Prints P := by
  have hout : (r ++ s).out = s.out := by rw [CommandLine.out_append, hr, List.nil_append]
  rwa [Prints, hout]

theorem prints_append_left (hr : r.Prints P) (hs : s.out = []) : (r ++ s).Prints P := by
  have hout : (r ++ s).out = r.out := by rw [CommandLine.out_append, hs, List.append_nil]
  rwa [Prints, hout]

theorem prints_failed (causes : Causes) (h : ¬P) : (failed causes).Prints P := .inr ⟨h, rfl⟩

theorem prints_json {j : Json} (hj : j.IsIntegral) (h : P) : (json j).Prints P :=
  .inl ⟨h, j, hj, rfl⟩

/-- What is printed is one line with a document, or nothing. -/
theorem Prints.textOf (h : r.Prints P) :
    (Report.textOf r.out = "" ∨ IsDocumentLine (Report.textOf r.out)) ∧
      (Report.textOf r.out ≠ "" ↔ P) := by
  rcases h with ⟨hP, j, hj, hout⟩ | ⟨hP, hout⟩
  · have htext : Report.textOf r.out = j.toText ++ "\n" := by
      simp [Report.textOf, hout]
    rw [htext]
    refine ⟨.inr ⟨_, j, rfl, hj.newline_not_mem, hj.parse?_toText⟩, iff_of_true ?_ hP⟩
    simp
  · have htext : Report.textOf r.out = "" := by
      simp [Report.textOf, hout]
    rw [htext]
    exact ⟨.inl rfl, iff_of_false (by simp) hP⟩

end Report

namespace CommandLine

open Report (Prints prints_append_left prints_append_right prints_failed prints_json)

/-! ## Values that are printed -/

theorem isIntegral_toJson_of_resolutionError (e : ResolutionError) : e.toJson.IsIntegral := by
  cases e <;> simp [ResolutionError.toJson]

theorem isIntegral_failureJson (name : String) (errors : List ResolutionError) :
    (failureJson name errors).IsIntegral := by
  simp [failureJson, isIntegral_toJson_of_resolutionError]

theorem isIntegral_groupJson (G : Graph) (g : GroupId) : (groupJson G g).IsIntegral := by
  simp [groupJson]

theorem isIntegral_edgeJson (e : Graph.Edge) : (edgeJson e).IsIntegral := by
  simp [edgeJson]

/-! ## Commands -/

section Commands

variable {d : Display} {files : Files} {path : String} (hjson : d.format = .json)

include hjson

theorem prints_choose {P : Prop} (text : Report) {j : Json} (hj : j.IsIntegral) (h : P) :
    (d.choose text (.json j)).Prints P := by
  unfold Display.choose
  rw [hjson]
  exact prints_json hj h

theorem prints_errors (messages : List String) : (d.errors messages).Prints True :=
  prints_choose hjson _ (by simp) trivial

/-- A draft that is checked is reported on, whatever is wrong with it. -/
theorem prints_checkDraft (draft : InvoiceDraft) : (checkDraft d path draft).Prints True := by
  unfold checkDraft
  split
  · refine prints_append_left (prints_append_right ?_ (prints_errors hjson _)) rfl
    unfold Display.choose
    rw [hjson]
  · split
    · exact prints_append_left (prints_errors hjson _) rfl
    · exact prints_choose hjson _ (by simp) trivial

theorem prints_check :
    (check d files path).Prints (∃ draft, InvoiceDraft.load files path = .ok draft) := by
  unfold check
  cases InvoiceDraft.load files path with
  | error causes => exact prints_failed _ (by simp)
  | ok draft =>
    refine prints_append_right (out_noteOf _ _) ((prints_checkDraft hjson draft).congr ?_)
    exact iff_of_true trivial ⟨draft, rfl⟩

theorem prints_listGroups :
    (listGroups d files path).Prints (∃ G, loadGraph files path = .ok G) := by
  unfold listGroups
  cases loadGraph files path with
  | error causes => exact prints_failed _ (by simp)
  | ok G =>
    refine prints_append_right (out_noteOf _ _) (prints_choose hjson _ ?_ ⟨G, rfl⟩)
    simp [isIntegral_groupJson]

theorem prints_listEdges :
    (listEdges d files path).Prints (∃ G, loadGraph files path = .ok G) := by
  unfold listEdges
  cases loadGraph files path with
  | error causes => exact prints_failed _ (by simp)
  | ok G =>
    refine prints_append_right (out_noteOf _ _) (prints_choose hjson _ ?_ ⟨G, rfl⟩)
    simp [isIntegral_edgeJson]

/-- The result of a resolution is printed, be it a manifest or errors. -/
theorem prints_concluded (name : String) (result : Except ResolveError Manifest) :
    (concluded d name result).Prints
      ((∃ m, result = .ok m) ∨ ∃ errors, result = .error (.resolution errors)) := by
  cases result with
  | ok m => exact prints_choose hjson _ m.isIntegral_toJson (.inl ⟨m, rfl⟩)
  | error e =>
    cases e with
    | resolution errors =>
      exact .inl ⟨.inr ⟨errors, rfl⟩, _, isIntegral_failureJson name errors,
        out_concluded_error hjson errors⟩
    | yanked name => exact prints_failed _ (by simp)
    | graph e => exact prints_failed _ (by simp)

theorem prints_resolve (settings : ResolveSettings) (a : ResolveArguments) :
    (resolve d files settings path a).Prints
      (∃ i choices, Invoice.load files path = .ok i ∧ a.loadChoices files = .ok choices ∧
        let result := (i.resolve (a.policy settings) choices.chooser
          (a.allowsYanked settings)).result
        (∃ m, result = .ok m) ∨ ∃ errors, result = .error (.resolution errors)) := by
  unfold resolve
  cases Invoice.load files path with
  | error causes => exact prints_failed _ (by simp)
  | ok i =>
    cases a.loadChoices files with
    | error causes => exact prints_failed _ (by simp)
    | ok choices =>
      exact prints_append_right (out_noteOf _ _) ((prints_concluded hjson _ _).congr (by simp))

end Commands

/-! ## Failures that are printed -/

/-- The command fails with a list of what is wrong: violations of the schema or a cycle when it
checks, and errors of the resolution when it resolves. -/
inductive Command.FailsOpenly (files : Files) (settings : ResolveSettings) (path : String) :
    Command → Prop where
  | violations {draft : InvoiceDraft} (hdraft : InvoiceDraft.load files path = .ok draft)
    (h : draft.violations ≠ []) : FailsOpenly files settings path .check
  | cycle {draft : InvoiceDraft} {i : Invoice}
    (hdraft : InvoiceDraft.load files path = .ok draft) (hmade : Invoice.ofDraft draft = .ok i)
    (h : ¬({ invoice := i } : Graph).IsAcyclic) : FailsOpenly files settings path .check
  | resolution {a : ResolveArguments} {i : Invoice} {choices : ChoiceMap}
    {errors : List ResolutionError} (hi : Invoice.load files path = .ok i)
    (hchoices : a.loadChoices files = .ok choices)
    (h : (i.resolve (a.policy settings) choices.chooser (a.allowsYanked settings)).result =
      .error (.resolution errors)) : FailsOpenly files settings path (.resolve a)

variable {files : Files} {settings : ResolveSettings} {path : String}

/-- A draft that is loaded is usable, or what is wrong with it is listed. -/
theorem exists_load_iff : (∃ draft, InvoiceDraft.load files path = .ok draft) ↔
    IsUsable files path ∨ Command.check.FailsOpenly files settings path := by
  constructor
  · rintro ⟨draft, hdraft⟩
    rcases draft.made_or_refused with ⟨i, hmade, -⟩ | ⟨first, rest, -, hall⟩
    · by_cases hacyclic : ({ invoice := i } : Graph).IsAcyclic
      · exact .inl ⟨draft, i, hdraft, InvoiceDraft.violations_eq_nil hmade, hmade, hacyclic⟩
      · exact .inr (.cycle hdraft hmade hacyclic)
    · refine .inr (.violations hdraft ?_)
      rw [InvoiceDraft.violations, hall]
      simp
  · rintro (⟨draft, -, hdraft, -⟩ | ⟨hdraft, -⟩ | ⟨hdraft, -, -⟩)
    · exact ⟨draft, hdraft⟩
    · exact ⟨_, hdraft⟩
    · exact ⟨_, hdraft⟩

/-- A command prints a document exactly when it ends well or fails openly. -/
theorem prints_runCommand {d : Display} (hjson : d.format = .json) (command : Command) :
    let r := runCommand d files settings path command
    r.Prints (r.code = 0 ∨ command.FailsOpenly files settings path) := by
  intro r
  cases command with
  | check =>
    have hcode : r.code = 0 ↔ IsUsable files path := tells_check.code_eq_zero_iff
    rw [hcode, ← exists_load_iff]
    exact prints_check hjson
  | groups =>
    have hcode : r.code = 0 ↔ IsUsable files path := tells_listGroups.code_eq_zero_iff
    rw [hcode, ← exists_loadGraph_iff, or_iff_left (by rintro ⟨⟩)]
    exact prints_listGroups hjson
  | graph =>
    have hcode : r.code = 0 ↔ IsUsable files path := tells_listEdges.code_eq_zero_iff
    rw [hcode, ← exists_loadGraph_iff, or_iff_left (by rintro ⟨⟩)]
    exact prints_listEdges hjson
  | resolve a =>
    refine (prints_resolve hjson settings a).congr ?_
    have hcode : r.code = 0 ↔ _ := tells_resolve.code_eq_zero_iff
    rw [hcode]
    constructor
    · rintro ⟨i, choices, hi, hchoices, ⟨m, hm⟩ | ⟨errors, herrors⟩⟩
      · exact .inl ⟨i, choices, m, hi, hchoices, hm⟩
      · exact .inr (.resolution hi hchoices herrors)
    · rintro (⟨i, choices, m, hi, hchoices, hm⟩ | hfails)
      · exact ⟨i, choices, hi, hchoices, .inl ⟨m, hm⟩⟩
      · cases hfails with
        | resolution hi hchoices herrors => exact ⟨_, _, hi, hchoices, .inr ⟨_, herrors⟩⟩

/-! ## Runs -/

/-- The settings load, and the command fails openly. -/
def Invocation.FailsOpenly (i : Invocation) (environment : Environment) (files : Files) : Prop :=
  ∃ c, Configuration.load files environment i.config = .ok c ∧
    i.command.FailsOpenly files c.project.resolve i.invoice

/-- **As JSON, one document or nothing is printed.** When the format in effect is JSON, what is
printed among the results is empty or one line with one document. It is not empty exactly when the
run ends well or fails openly. -/
theorem run_json {environment : Environment} {files : Files} {arguments : List String}
    {i : Invocation} (hi : Invocation.parse environment.configFile arguments = .ok i)
    (hjson : ∀ c, Configuration.load files environment i.config = .ok c →
      (i.display c.user).format = .json) :
    let r := run environment files arguments
    (Report.textOf r.out = "" ∨ IsDocumentLine (Report.textOf r.out)) ∧
      (Report.textOf r.out ≠ "" ↔ r.code = 0 ∨ i.FailsOpenly environment files) := by
  intro r
  have hrun : r = i.run environment files := by
    show run environment files arguments = _
    rw [run, hi]
  refine Prints.textOf ?_
  rw [hrun, Invocation.run]
  cases hc : Configuration.load files environment i.config with
  | error causes => exact prints_failed _ (by simp [Invocation.FailsOpenly, hc, Report.failed])
  | ok c =>
    refine prints_append_right (out_sourceNote c) ((prints_runCommand (hjson c hc) _).congr ?_)
    simp only [Invocation.FailsOpenly, hc, Except.ok.injEq, exists_eq_left']
    rfl

/-! ## A worked scenario -/

namespace Worked

/-- A directory with an invoice that declares a group under a name with a line break. -/
def misnamed : Files :=
  FileTree.read
    { files := [(["bindle.toml"], "group = [\x7bname = \"cli\\n\"\x7d]")], directories := [] } []

/-- What checks it, with notes. -/
def checkArguments : List String :=
  ["-v", "--format", "json", "check", "bindle.toml"]

def checking : Invocation where
  command := .check
  invoice := "bindle.toml"
  format := some .json
  verbose := true
  config := none

/-- The invoice is refused, and the one line that is printed says why. -/
theorem run_json_misnamed :
    Invocation.parse environment.configFile checkArguments = .ok checking ∧
      (∀ c, Configuration.load misnamed environment checking.config = .ok c →
        (checking.display c.user).format = .json) ∧
      (run environment misnamed checkArguments).code = 1 ∧
      IsDocumentLine (Report.textOf (run environment misnamed checkArguments).out) := by
  have hi : Invocation.parse environment.configFile checkArguments = .ok checking := by
    decide +kernel
  have hjson : ∀ c, Configuration.load misnamed environment checking.config = .ok c →
      (checking.display c.user).format = .json := fun _ _ => rfl
  have hcode : (run environment misnamed checkArguments).code = 1 := by decide +kernel
  have hc : Configuration.load misnamed environment checking.config = .ok {} := by decide +kernel
  have hdraft : InvoiceDraft.load misnamed checking.invoice =
      .ok { groups := some [{ name := "cli\n" }] } := by decide +kernel
  have hfails : checking.FailsOpenly environment misnamed :=
    ⟨{}, hc, .violations hdraft (by decide +kernel)⟩
  obtain ⟨hempty | hline, hprints⟩ := run_json hi hjson
  · exact absurd hempty (hprints.2 (.inr hfails))
  · exact ⟨hi, hjson, hcode, hline⟩

end Worked

end CommandLine

end Bindle
