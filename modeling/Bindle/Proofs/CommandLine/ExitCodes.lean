import Bindle.CommandLine.Run
import Bindle.Proofs.Invoice.Reporting
import Bindle.Proofs.Resolution.Verdict

/-!
# Exit codes

A command that runs ends with the exit code zero or one, and the code tells one thing. For the
commands that look at an invoice it is the same thing, whether the invoice can be used: the command
that checks gathers all violations and the others stop at the first, but there is a first exactly
when there are any. For the command that resolves it is whether the resolution succeeds, and only
an invoice that can be used gets that far.

* `Report.Tells`: the exit code tells whether something holds.
* `IsUsable`: a file holds an invoice that can be used; `exists_loadGraph_iff` says that it has a
  graph then.
* `tells_check`, `tells_listGroups`, `tells_listEdges`, `tells_resolve`: what the exit code of each
  command tells.
* `Invocation.tells_run`: what that of a run tells, which loads the settings first.
* `Invocation.inspections_agree`: the commands compared.
-/

namespace Bindle

/-! ## What an exit code tells -/

namespace Report

/-- The exit code tells whether something holds: it is zero if so, and one if not. -/
def Tells (r : Report) (P : Prop) : Prop :=
  r.code = 0 ∧ P ∨ r.code = 1 ∧ ¬P

variable {r s : Report} {P Q : Prop}

theorem tells_append : (r ++ s).Tells P ↔ s.Tells P := Iff.rfl

theorem tells_failed (causes : Causes) (h : ¬P) : (failed causes).Tells P := .inr ⟨rfl, h⟩

/-- Lines of results and a value as the result tell the same. -/
theorem tells_choose (d : Display) (lines : List String) (j : Json) (h : P) :
    (d.choose (results lines) (json j)).Tells P := by
  refine .inl ⟨?_, h⟩
  unfold Display.choose
  split <;> rfl

theorem Tells.congr (h : r.Tells P) (hiff : P ↔ Q) : r.Tells Q := by
  rwa [Tells, ← hiff]

theorem Tells.code_eq_zero_iff (h : r.Tells P) : r.code = 0 ↔ P := by
  rcases h with ⟨hcode, hP⟩ | ⟨hcode, hP⟩
  · exact iff_of_true hcode hP
  · exact iff_of_false (by omega) hP

theorem Tells.code_eq_one (h : r.Tells P) (hP : ¬P) : r.code = 1 := by
  rcases h with ⟨-, h⟩ | ⟨hcode, -⟩
  · exact absurd h hP
  · exact hcode

/-- Exit codes that tell the same are equal. -/
theorem Tells.code_eq (hr : r.Tells P) (hs : s.Tells P) : r.code = s.code := by
  rcases hr with ⟨hr, hP⟩ | ⟨hr, hP⟩
  · exact hr.trans (hs.code_eq_zero_iff.2 hP).symm
  · exact hr.trans (hs.code_eq_one hP).symm

end Report

/-! ## Loading -/

variable {files : Files} {path : String} {draft : InvoiceDraft} {i : Invoice}

/-- Gathering all violations, the checks make the invoice of a draft, or find the one that keeps it
from being one. -/
theorem InvoiceDraft.made_or_refused (draft : InvoiceDraft) :
    (∃ i, Invoice.ofDraft draft = .ok i ∧ draft.check .collectAll = .ok i) ∨
      ∃ first rest, Invoice.ofDraft draft = .error first ∧
        draft.check .collectAll = .error (first :: rest) := by
  rcases draft.check_eq_ok_or_error with ⟨i, hfast, hall⟩ | ⟨first, rest, hfast, hall⟩
  · exact .inl ⟨i, by rw [Invoice.ofDraft, hfast], hall⟩
  · exact .inr ⟨first, rest, by rw [Invoice.ofDraft, hfast], hall⟩

/-- An invoice is made of a draft without violations. -/
theorem InvoiceDraft.violations_eq_nil (h : Invoice.ofDraft draft = .ok i) :
    draft.violations = [] := by
  rcases draft.made_or_refused with ⟨made, -, hall⟩ | ⟨first, rest, hrefused, -⟩
  · rw [violations, hall]
  · rw [h] at hrefused
    cases hrefused

theorem InvoiceDraft.load_eq_ok_iff :
    load files path = .ok draft ↔ ∃ text, files path = .ok text ∧ parse? text = some draft := by
  unfold load
  cases files path with
  | error e => simp
  | ok text => cases hparse : parse? text <;> simp [hparse]

theorem Invoice.load_eq_ok_iff :
    Invoice.load files path = .ok i ↔
      ∃ draft, InvoiceDraft.load files path = .ok draft ∧ Invoice.ofDraft draft = .ok i := by
  unfold Invoice.load
  cases InvoiceDraft.load files path with
  | error causes => simp [bind, Except.bind]
  | ok draft =>
    cases hmade : Invoice.ofDraft draft <;> simp [bind, Except.bind, hmade, pure, Except.pure]

namespace CommandLine

open Report (tells_append tells_failed tells_choose)

variable {G : Graph} {d : Display}

theorem loadGraph_eq_ok_iff :
    loadGraph files path = .ok G ↔
      ∃ i, Invoice.load files path = .ok i ∧ Graph.build i = .ok G := by
  unfold loadGraph
  cases Invoice.load files path with
  | error causes => simp [bind, Except.bind]
  | ok i => cases hbuild : Graph.build i <;> simp [bind, Except.bind, Except.mapError, hbuild]

/-- The file can be read and decodes, nothing in it violates the schema, and in the graph of the
invoice no walk comes back to where it started. -/
def IsUsable (files : Files) (path : String) : Prop :=
  ∃ draft i, InvoiceDraft.load files path = .ok draft ∧ draft.violations = [] ∧
    Invoice.ofDraft draft = .ok i ∧ Graph.IsAcyclic { invoice := i }

theorem exists_loadGraph_iff : (∃ G, loadGraph files path = .ok G) ↔ IsUsable files path := by
  constructor
  · rintro ⟨G, hG⟩
    obtain ⟨i, hi, hbuild⟩ := loadGraph_eq_ok_iff.1 hG
    obtain ⟨draft, hdraft, hmade⟩ := Invoice.load_eq_ok_iff.1 hi
    obtain ⟨rfl, hacyclic⟩ := Graph.build_eq_ok_iff.1 hbuild
    exact ⟨draft, i, hdraft, InvoiceDraft.violations_eq_nil hmade, hmade, hacyclic⟩
  · rintro ⟨draft, i, hdraft, -, hmade, hacyclic⟩
    have hi := Invoice.load_eq_ok_iff.2 ⟨draft, hdraft, hmade⟩
    exact ⟨_, loadGraph_eq_ok_iff.2 ⟨i, hi, Graph.build_eq_ok_iff.2 ⟨rfl, hacyclic⟩⟩⟩

/-! ## Commands -/

theorem tells_checkDraft (hdraft : InvoiceDraft.load files path = .ok draft) :
    (checkDraft d path draft).Tells (∃ G, loadGraph files path = .ok G) := by
  have hgraph : ∀ G, loadGraph files path = .ok G ↔
      ∃ i, Invoice.ofDraft draft = .ok i ∧ Graph.build i = .ok G := by
    intro G
    simp [loadGraph_eq_ok_iff, Invoice.load_eq_ok_iff, hdraft]
  simp only [hgraph]
  unfold checkDraft
  rcases draft.made_or_refused with ⟨i, hmade, hall⟩ | ⟨first, rest, hrefused, hall⟩
  · rw [hall]
    dsimp only
    cases hbuild : Graph.build i with
    | error e => exact tells_append.2 (tells_failed _ (by simp [hmade, hbuild]))
    | ok G => exact tells_choose _ _ _ ⟨G, i, hmade, hbuild⟩
  · rw [hall]
    exact tells_append.2 (tells_failed _ (by simp [hrefused]))

/-- The command that checks tells whether the invoice can be used. -/
theorem tells_check : (check d files path).Tells (IsUsable files path) := by
  refine Report.Tells.congr ?_ exists_loadGraph_iff
  unfold check
  cases hdraft : InvoiceDraft.load files path with
  | error causes =>
    exact tells_failed _ (by simp [loadGraph_eq_ok_iff, Invoice.load_eq_ok_iff, hdraft])
  | ok draft => exact tells_append.2 (tells_checkDraft hdraft)

/-- So does the command that lists groups. -/
theorem tells_listGroups : (listGroups d files path).Tells (IsUsable files path) := by
  refine Report.Tells.congr ?_ exists_loadGraph_iff
  unfold listGroups
  cases hgraph : loadGraph files path with
  | error causes => exact tells_failed _ (by simp)
  | ok G => exact tells_append.2 (tells_choose _ _ _ ⟨G, rfl⟩)

/-- So does the command that lists edges. -/
theorem tells_listEdges : (listEdges d files path).Tells (IsUsable files path) := by
  refine Report.Tells.congr ?_ exists_loadGraph_iff
  unfold listEdges
  cases hgraph : loadGraph files path with
  | error causes => exact tells_failed _ (by simp)
  | ok G => exact tells_append.2 (tells_choose _ _ _ ⟨G, rfl⟩)

variable {settings : ResolveSettings} {a : ResolveArguments} {choices : ChoiceMap}

/-- The report on the result of a resolution tells whether the resolution succeeded. -/
theorem tells_concluded {name : String} {result : Except ResolveError Manifest} :
    (concluded d name result).Tells (∃ m, result = .ok m) := by
  cases result with
  | ok m => exact tells_choose _ _ _ ⟨m, rfl⟩
  | error e =>
    have hfails : ¬∃ m, Except.error e = (.ok m : Except ResolveError Manifest) := by simp
    cases e with
    | resolution errors => exact tells_append.2 (tells_failed _ hfails)
    | yanked name => exact tells_failed _ hfails
    | graph e => exact tells_failed _ hfails

theorem tells_resolveInvoice :
    (resolveInvoice d settings a i choices).Tells
      (∃ m, (i.resolve (a.policy settings) choices.chooser
        (a.allowsYanked settings)).result = .ok m) := by
  unfold resolveInvoice
  exact tells_append.2 tells_concluded

theorem tells_resolve :
    (resolve d files settings path a).Tells
      (∃ i choices m, Invoice.load files path = .ok i ∧ a.loadChoices files = .ok choices ∧
        (i.resolve (a.policy settings) choices.chooser
          (a.allowsYanked settings)).result = .ok m) := by
  unfold resolve
  cases hi : Invoice.load files path with
  | error causes => exact tells_failed _ (by simp)
  | ok i =>
    cases hchoices : a.loadChoices files with
    | error causes => exact tells_failed _ (by simp)
    | ok choices => exact tells_resolveInvoice.congr (by simp)

/-- An invoice that resolves can be used. -/
theorem isUsable_of_resolve {policy : Policy} {chooser : Chooser} {allowYanked : Bool}
    {m : Manifest} (hi : Invoice.load files path = .ok i)
    (hm : (i.resolve policy chooser allowYanked).result = .ok m) : IsUsable files path := by
  obtain ⟨draft, hdraft, hmade⟩ := Invoice.load_eq_ok_iff.1 hi
  obtain ⟨-, hacyclic, -⟩ := Invoice.resolve_eq_ok_iff.1 hm
  exact ⟨draft, i, hdraft, InvoiceDraft.violations_eq_nil hmade, hmade, hacyclic⟩

/-! ## Runs -/

namespace Invocation

/-- A run tells what its command tells, and that the settings load. -/
theorem tells_run (invocation : Invocation) (environment : Environment) (files : Files)
    {P : Configuration → Prop}
    (h : ∀ c, (runCommand (invocation.display c.user) files c.project.resolve invocation.invoice
      invocation.command).Tells (P c)) :
    (invocation.run environment files).Tells
      (∃ c, Configuration.load files environment invocation.config = .ok c ∧ P c) := by
  unfold run
  cases Configuration.load files environment invocation.config with
  | error causes => exact tells_failed _ (by simp)
  | ok c => exact tells_append.2 ((h c).congr (by simp))

/-- **The commands that look at an invoice agree on what is valid.** They exit with the same code,
which is zero exactly when the settings load and the file holds a usable invoice. Whenever the
invoice is resolved with that exit code, by whatever arguments, it is usable. -/
theorem inspections_agree (invocation : Invocation) (environment : Environment) (files : Files) :
    let code (c : Command) := ({ invocation with command := c }.run environment files).code
    code .groups = code .check ∧ code .graph = code .check ∧
      (code .check = 0 ↔
        (∃ c, Configuration.load files environment invocation.config = .ok c) ∧
          IsUsable files invocation.invoice) ∧
      ∀ a, code (.resolve a) = 0 → code .check = 0 := by
  intro code
  have hcheck := tells_run { invocation with command := .check } environment files
    fun _ => tells_check
  have hgroups := tells_run { invocation with command := .groups } environment files
    fun _ => tells_listGroups
  have hgraph := tells_run { invocation with command := .graph } environment files
    fun _ => tells_listEdges
  refine ⟨hgroups.code_eq hcheck, hgraph.code_eq hcheck, ?_, fun a ha => ?_⟩
  · rw [hcheck.code_eq_zero_iff, exists_and_right]
  · have hresolve := tells_run { invocation with command := .resolve a } environment files
      fun _ => tells_resolve
    obtain ⟨c, hc, i, choices, m, hi, -, hm⟩ := hresolve.code_eq_zero_iff.1 ha
    exact hcheck.code_eq_zero_iff.2 ⟨c, hc, isUsable_of_resolve hi hm⟩

end Invocation

end CommandLine

end Bindle
