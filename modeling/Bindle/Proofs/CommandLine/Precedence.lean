import Bindle.Files.Tree
import Bindle.Proofs.CommandLine.Documents
import Bindle.Proofs.CommandLine.ExitCodes
import Bindle.Proofs.CommandLine.Flags
import Bindle.Proofs.Sorted.Lookup

/-!
# What an invoice is resolved with

The settings, a document of choices and the options all have a say in how an invoice is resolved.
The groups to opt into are gathered from the settings and the options, in whatever order they are
given and however often; of everything else the options count first, and the last one of those that
may be repeated. The resolution is run with what comes of this and with nothing else, and what is
printed as JSON is its result.

All of it is said of the arguments as they are typed and of the texts of the documents, so that it
covers how these are read; `Bindle.CommandLine.Resolving` is what is done with them.

* `Combines`: a policy in which settings and options are put together; there is one.
* `HasRecorded`: the choices that a document records.
* `choiceFor?`, `chooser`: the choice in effect for a group, and the chooser that goes by it.
* `out_concluded_ok`, `out_concluded_error`: what is printed as JSON.
* `resolve_in_effect`: the command, in these terms.
-/

namespace Bindle.CommandLine

/-! ## What is in effect -/

/-- The choices that are recorded: those in the document that an option names, and none without
such an option. -/
def HasRecorded (files : Files) (behind : List Item) (recorded : List (String × String)) : Prop :=
  match valueOf? .choices behind with
  | none => recorded = []
  | some path => ∃ text, files path = .ok text ∧ Records text recorded

/-- The policy opts into the groups of the settings and of the options, and reads `anyOf` as an
option says, or else as the settings say. -/
structure Combines (behind : List Item) (settings : ResolveSettings) (policy : Policy) : Prop where
  optedIn : ∀ name, name ∈ policy.optedIn ↔ name ∈ settings.optIn ∨ .option .optIn name ∈ behind
  anyOf : policy.anyOf = (said behind).anyOf.getD settings.anyOf

/-- The choice for a group: the last one among those chosen, or else the recorded one. -/
def choiceFor? (chosen recorded : List (String × String)) (group : String) : Option String :=
  (chosen.reverse.lookup group).or (recorded.reverse.lookup group)

/-- The chooser that goes by these choices, and skips a group without one. -/
def chooser (chosen recorded : List (String × String)) : Chooser := fun _ q =>
  .ofOption (choiceFor? chosen recorded q.group.text)

/-- How to resolve, as is said behind the command. -/
def resolving (behind : Given) : ResolveArguments where
  optIn := behind.optIn
  choose := behind.choose
  choices := behind.choices
  anyOf := behind.anyOf
  allowYanked := behind.allowYanked

section InEffect

variable {a : ResolveArguments} {settings : ResolveSettings} {policy : Policy}
  {behind : List Item} {files : Files} {chosen recorded : List (String × String)}

theorem mem_policy_optedIn {name : String} :
    name ∈ (a.policy settings).optedIn ↔ name ∈ settings.optIn ∨ name ∈ a.optIn := by
  have hsettings : name ∈ settings.policy.optedIn ↔ name ∈ settings.optIn := by
    rw [ResolveSettings.policy, NameSet.ofList, NameSet.mem_foldl_insert]
    simp [NameSet.not_mem_empty]
  rw [ResolveArguments.policy, NameSet.mem_foldl_insert, hsettings]

theorem combines_policy (behind : List Item) (settings : ResolveSettings) :
    Combines behind settings ((resolving (said behind)).policy settings) where
  optedIn name := by
    rw [mem_policy_optedIn]
    exact or_congr_right mem_valuesOf
  anyOf := rfl

/-- There is one policy in which settings and options are put together. -/
theorem Combines.unique {other : Policy} (h : Combines behind settings policy)
    (hother : Combines behind settings other) : policy = other := by
  obtain ⟨optedIn, reading⟩ := policy
  obtain ⟨optedIn', reading'⟩ := other
  have hoptedIn : optedIn = optedIn' :=
    NameSet.ext fun name => (h.optedIn name).trans (hother.optedIn name).symm
  have hreading : reading = reading' := h.anyOf.trans hother.anyOf.symm
  rw [hoptedIn, hreading]

/-- In which order the groups to opt into are given, and how often, makes no difference. -/
theorem policy_congr {optIn : List String} (h : ∀ name, name ∈ optIn ↔ name ∈ a.optIn) :
    ResolveArguments.policy { a with optIn } settings = a.policy settings := by
  have hoptedIn : (ResolveArguments.policy { a with optIn } settings).optedIn =
      (a.policy settings).optedIn := by
    refine NameSet.ext fun name => ?_
    rw [mem_policy_optedIn, mem_policy_optedIn, h]
  exact congrArg (fun names : NameSet => (⟨names, _⟩ : Policy)) hoptedIn

/-- What texts give is what is read of them. -/
theorem filterMap_parseChoice? {texts : List String} (h : List.Forall₂ Chooses texts chosen) :
    texts.filterMap parseChoice? = chosen := by
  induction h with
  | nil => rfl
  | cons htext _ ih => rw [List.filterMap_cons, parseChoice?_eq_some_iff.2 htext, ih]

theorem recordedChoices_eq_ok (h : HasRecorded files behind recorded) :
    (resolving (said behind)).recordedChoices files = .ok (.ofList recorded) := by
  have hchoices : (resolving (said behind)).choices = valueOf? .choices behind := rfl
  rw [HasRecorded] at h
  rw [ResolveArguments.recordedChoices, hchoices]
  cases hpath : valueOf? .choices behind with
  | none =>
    rw [hpath] at h
    rw [h]
    rfl
  | some path =>
    rw [hpath] at h
    obtain ⟨text, htext, hrecords⟩ := h
    simp only [ChoiceMap.load, htext, ChoiceMap.parse?_eq_some_iff.2 ⟨_, hrecords, rfl⟩]

/-- The choices that are loaded are those in effect. -/
theorem exists_loadChoices (hrecorded : HasRecorded files behind recorded)
    (hchosen : List.Forall₂ Chooses (valuesOf .choose behind) chosen) :
    ∃ choices, (resolving (said behind)).loadChoices files = .ok choices ∧
      choices.chooser = chooser chosen recorded := by
  refine ⟨_, by rw [ResolveArguments.loadChoices, recordedChoices_eq_ok hrecorded]; rfl, ?_⟩
  funext earlier q
  have hchoose : (resolving (said behind)).choose = chosen := filterMap_parseChoice? hchosen
  rw [ChoiceMap.chooser, chooser, choiceFor?, StringMap.get?_extend, StringMap.get?_ofList_eq,
    StringMap.get?_ofList_eq, hchoose]

end InEffect

/-! ## What is printed -/

section Printed

variable {d : Display} {name : String}

theorem out_append (r s : Report) : (r ++ s).out = r.out ++ s.out := rfl

/-- Notes are not printed among the results. -/
theorem out_note (message : String) : (d.note message).out = [] := by
  unfold Display.note
  split <;> rfl

theorem out_noteOf (command message : String) : (d.noteOf command message).out = [] := by
  unfold Display.noteOf
  split <;> rfl

theorem out_sourceNote (c : Configuration) : (sourceNote d c).out = [] := by
  unfold sourceNote
  split
  · exact out_note _
  · exact out_note _

/-- What is printed of the errors of a resolution. -/
def failureJson (name : String) (errors : List ResolutionError) : Json :=
  .object [("errors", .array (errors.map (·.toJson))), ("invoice", .string name),
    ("success", .bool false)]

variable (hjson : d.format = .json)

include hjson

theorem out_concluded_ok (m : Manifest) : (concluded d name (.ok m)).out = [m.toJson.toText] := by
  unfold concluded Display.choose
  rw [hjson]
  rfl

theorem out_concluded_error (errors : List ResolutionError) :
    (concluded d name (.error (.resolution errors))).out = [(failureJson name errors).toText] := by
  unfold concluded unresolved Display.choose
  rw [hjson]
  rfl

end Printed

/-! ## The command -/

/-- In which order the groups to opt into are given, and how often, makes no difference. -/
theorem resolve_congr {d : Display} {files : Files} {settings : ResolveSettings} {path : String}
    {a : ResolveArguments} {optIn : List String} (h : ∀ name, name ∈ optIn ↔ name ∈ a.optIn) :
    resolve d files settings path { a with optIn } = resolve d files settings path a := by
  unfold resolve resolveInvoice
  rw [policy_congr h]
  rfl

/-- The items that do not give a group to opt into. -/
def withoutOptIns (items : List Item) : List Item :=
  items.filter fun
    | .option .optIn _ => false
    | _ => true

/-- The items are the same but for the groups to opt into, and these are the same but for their
order and repetitions. -/
structure OptsInAlike (behind other : List Item) : Prop where
  rest : withoutOptIns other = withoutOptIns behind
  optIn : ∀ name, .option .optIn name ∈ other ↔ .option .optIn name ∈ behind

section Alike

variable {items behind other : List Item} {o : OptionName}

theorem valuesOf_withoutOptIns (ho : o ≠ .optIn) :
    valuesOf o (withoutOptIns items) = valuesOf o items := by
  rw [valuesOf, withoutOptIns, List.filterMap_filter]
  refine List.filterMap_congr fun item _ => ?_
  cases item with
  | option o' value =>
    cases o' with
    | optIn => simp [Ne.symm ho]
    | _ => rfl
  | _ => rfl

theorem invoicesOf_withoutOptIns : invoicesOf (withoutOptIns items) = invoicesOf items := by
  rw [invoicesOf, withoutOptIns, List.filterMap_filter]
  refine List.filterMap_congr fun item _ => ?_
  cases item with
  | option o' value => cases o' <;> rfl
  | _ => rfl

theorem switch_mem_withoutOptIns : .switch o ∈ withoutOptIns items ↔ .switch o ∈ items := by
  simp [withoutOptIns]

/-- Without the groups to opt into the items say the rest. -/
theorem said_withoutOptIns {optIn : List String} :
    { said (withoutOptIns items) with optIn } = { said items with optIn } := by
  simp [said, valueOf?, valuesOf_withoutOptIns, invoicesOf_withoutOptIns,
    switch_mem_withoutOptIns]

theorem OptsInAlike.said_eq (h : OptsInAlike behind other) :
    said other = { said behind with optIn := (said other).optIn } :=
  calc said other
      = { said (withoutOptIns other) with optIn := (said other).optIn } :=
        said_withoutOptIns.symm
    _ = { said behind with optIn := (said other).optIn } := by rw [h.rest, said_withoutOptIns]

end Alike

section Resolving

variable {environment : Environment} {files : Files} {arguments : List String}
  {front behind : List Item} {path : String} {c : Configuration} {i : Invoice}
  {chosen recorded : List (String × String)}

/-- What a command line for resolving asks for, from what is said in front of the command and what
is said behind it. -/
def lineInvocation (environment : Environment) (path : String) (front behind : Given) :
    Invocation where
  command := .resolve (resolving behind)
  invoice := path
  format := behind.format.or front.format
  verbose := behind.verbose || front.verbose
  config := behind.config.or (front.config.or environment.configFile)

theorem run_eq (hline : IsLine arguments .resolve front behind path)
    (henvironment : environment.configFile ≠ some "") :
    run environment files arguments =
      (lineInvocation environment path (said front) (said behind)).run environment files := by
  rw [run, Invocation.parse_eq_ok hline henvironment]
  rfl

theorem run_congr {other : List Item} (h : OptsInAlike behind other) :
    (lineInvocation environment path (said front) (said other)).run environment files =
      (lineInvocation environment path (said front) (said behind)).run environment files := by
  have hoptIn : ∀ name, name ∈ (said other).optIn ↔ name ∈ (resolving (said behind)).optIn :=
    fun name => mem_valuesOf.trans ((h.optIn name).trans mem_valuesOf.symm)
  have hresolve : ∀ d settings, resolve d files settings path (resolving (said other)) =
      resolve d files settings path (resolving (said behind)) := by
    intro d settings
    rw [h.said_eq]
    exact resolve_congr hoptIn
  have hother : lineInvocation environment path (said front) (said other) =
      { lineInvocation environment path (said front) (said behind) with
        command := .resolve (resolving (said other)) } := by
    rw [h.said_eq]
    rfl
  rw [hother]
  unfold Invocation.run runCommand
  simp only [hresolve, lineInvocation]
  rfl

/-- What is loaded is resolved by the policy and the choices in effect; before the report on the
result there are only notes. -/
theorem exists_run_resolve (hc : Configuration.load files environment
      ((said behind).config.or ((said front).config.or environment.configFile)) = .ok c)
    (hi : Invoice.load files path = .ok i) (hrecorded : HasRecorded files behind recorded)
    (hchosen : List.Forall₂ Chooses (valuesOf .choose behind) chosen) :
    let invocation := lineInvocation environment path (said front) (said behind)
    ∃ note, invocation.run environment files =
      sourceNote (invocation.display c.user) c ++
        ((invocation.display c.user).noteOf "resolve" note ++
          concluded (invocation.display c.user) i.name
            (i.resolve ((resolving (said behind)).policy c.project.resolve)
              (chooser chosen recorded)
              ((said behind).allowYanked || c.project.resolve.allowYanked)).result) := by
  obtain ⟨choices, hchoices, hchooser⟩ := exists_loadChoices hrecorded hchosen
  rw [← hchooser]
  unfold Invocation.run runCommand resolve
  simp only [lineInvocation, hc, hi, hchoices]
  exact ⟨_, rfl⟩

/-- **Settings, recorded choices and options are put together.** A command line gives items in
front of the command and behind it. What they name is loaded, and the invoice is resolved with the
groups of the settings and of the options, with the reading and the choices of the options before
all others, and yanked or not as either allows. The exit code is zero exactly when that succeeds;
as JSON the manifest is printed or else all errors, and nothing beside them. In which order the
groups to opt into are given, and how often, makes no difference at all. -/
theorem resolve_in_effect (hline : IsLine arguments .resolve front behind path)
    (henvironment : environment.configFile ≠ some "")
    (hc : Configuration.load files environment
      ((said behind).config.or ((said front).config.or environment.configFile)) = .ok c)
    (hi : Invoice.load files path = .ok i) (hrecorded : HasRecorded files behind recorded)
    (hchosen : List.Forall₂ Chooses (valuesOf .choose behind) chosen) :
    c.SetsAsWritten files ∧ ∃ policy, Combines behind c.project.resolve policy ∧
      let result := (i.resolve policy (chooser chosen recorded)
        ((said behind).allowYanked || c.project.resolve.allowYanked)).result
      let report := run environment files arguments
      (report.code = 0 ↔ ∃ m, result = .ok m) ∧
      (∀ e, result = .error e → report.code = 1) ∧
      (((said behind).format.or (said front).format).getD c.user.defaultFormat = .json →
        (∀ m, result = .ok m → report.out = [m.toJson.toText]) ∧
        ∀ errors, result = .error (.resolution errors) →
          report.out = [(failureJson i.name errors).toText]) ∧
      ∀ arguments' behind', IsLine arguments' .resolve front behind' path →
        OptsInAlike behind behind' → run environment files arguments' = report := by
  refine ⟨Configuration.setsAsWritten_of_load hc,
    (resolving (said behind)).policy c.project.resolve, combines_policy _ _, ?_⟩
  intro result report
  have hreport : report = _ := run_eq hline henvironment
  obtain ⟨note, hrun⟩ := exists_run_resolve hc hi hrecorded hchosen
  have htells : report.Tells (∃ m, result = .ok m) := by
    rw [hreport, hrun]
    exact Report.tells_append.2 (Report.tells_append.2 tells_concluded)
  refine ⟨htells.code_eq_zero_iff, fun e he => ?_, ?_, ?_⟩
  · exact htells.code_eq_one (by simp [he])
  · intro hjson
    have hout : report.out = (concluded
        ((lineInvocation environment path (said front) (said behind)).display c.user)
        i.name result).out := by
      rw [hreport, hrun, out_append, out_append, out_sourceNote, out_noteOf]
      rfl
    refine ⟨fun m hm => ?_, fun errors he => ?_⟩
    · rw [hout, hm, out_concluded_ok hjson]
    · rw [hout, he, out_concluded_error hjson]
  · intro arguments' behind' hline' halike
    rw [hreport, run_eq hline' henvironment, run_congr halike]

end Resolving

/-! ## A worked scenario -/

namespace Worked

open Bindle.Worked (server cli label)

/-- An invoice with a server and a choice of two tools. -/
def document : String :=
  "bindleVersion = '1.0.0'
bindle = \x7bname = 'example/weather', version = '0.1.0'\x7d
group = [\x7bname = 'server'\x7d, \x7bname = 'cli', satisfiedBy = 'oneOf', required = true\x7d]
[[parcel]]
label = \x7bname = 'daemon', sha256 = 'e1706a'\x7d
conditions.memberOf = ['server']
[[parcel]]
label = \x7bname = 'first', sha256 = 'e1706a'\x7d
conditions.memberOf = ['cli']
[[parcel]]
label = \x7bname = 'second', sha256 = 'e1706a'\x7d
conditions.memberOf = ['cli']
"

/-- A directory with the invoice, settings that opt into the server, and a recorded choice. -/
def files : Files :=
  FileTree.read
    { files := [(["bindle.toml"], document), (["choices.toml"], "cli = 'first'"),
        ([".parcel", "config.toml"], "resolve.opt_in = ['server']")]
      directories := [] } []

def environment : Environment := ⟨[], none, none, none⟩

/-- The server once more, and two choices for one group. -/
def behind : List Item :=
  [.option .optIn "server", .invoice "bindle.toml", .option .choose "cli=first",
    .option .choices "choices.toml", .option .anyOf "optional", .option .choose " cli = second "]

def arguments : List String :=
  ["-f", "json", "resolve", "--with", "server", "bindle.toml", "--choose=cli=first",
    "--choices", "choices.toml", "--any-of=optional", "--choose", " cli = second "]

/-- The same with the server given twice. -/
def repeating : List String :=
  ["-f", "json", "resolve", "--with=server", "--with", "server", "bindle.toml",
    "--choose=cli=first", "--choices", "choices.toml", "--any-of=optional", "--choose",
    " cli = second "]

def configuration : Configuration where
  project := { resolve := { optIn := ["server"] } }
  source := some "/.parcel/config.toml"

def invoice : Invoice where
  bindleVersion := "1.0.0"
  bindle := ⟨"example/weather", .ofNumbers 0 1 0, [], none⟩
  annotations := .empty
  groups := [⟨server, .allOf, false⟩, ⟨cli, .oneOf, true⟩]
  parcels := [⟨label "daemon", some [server], []⟩, ⟨label "first", some [cli], []⟩,
    ⟨label "second", some [cli], []⟩]
  yanked := false

def manifest : Manifest where
  invoice := "example/weather/0.1.0"
  parcels := [label "daemon", label "second"]
  report := [
    ⟨.global, .allOf, true, .global, true, []⟩,
    ⟨.named server, .allOf, true, .optedIn, true, ["daemon"]⟩,
    ⟨.named cli, .oneOf, true, .declared, true, ["second"]⟩]

set_option maxRecDepth 10000 in
theorem parse_document :
    (InvoiceDraft.parse? document).map Invoice.ofDraft = some (.ok invoice) := by
  unfold InvoiceDraft.parse? Toml.parse?
  -- Evaluating the document would decode its text once for each use of its characters.
  have htoList : document.toList = _ := String.toList_ofList
  rw [htoList]
  decide +kernel

theorem load_invoice : Invoice.load files "bindle.toml" = .ok invoice := by
  obtain ⟨draft, hdraft, hmade⟩ := Option.map_eq_some_iff.1 parse_document
  exact Invoice.load_eq_ok_iff.2 ⟨draft, InvoiceDraft.load_eq_ok_iff.2 ⟨document, rfl, hdraft⟩,
    hmade⟩

/-- Whether a document is one table with one text in it. -/
def isSingle (t : Option Toml) (key value : String) : Bool :=
  match t with
  | some (.table [(key', .string value')]) => key' = key ∧ value' = value
  | _ => false

theorem records_of_isSingle {text key value : String}
    (h : isSingle (Toml.parse? text) key value = true) : Records text [(key, value)] := by
  unfold isSingle at h
  split at h
  · rename_i htoml
    obtain ⟨rfl, rfl⟩ := of_decide_eq_true h
    rw [Records, htoml]
    rfl
  · cases h

theorem hasRecorded : HasRecorded files behind [("cli", "first")] :=
  ⟨"cli = 'first'", rfl, records_of_isSingle (by decide +kernel)⟩

theorem chooses : List.Forall₂ Chooses (valuesOf .choose behind)
    [("cli", "first"), ("cli", "second")] :=
  .cons (parseChoice?_eq_some_iff.1 (by decide +kernel))
    (.cons (parseChoice?_eq_some_iff.1 (by decide +kernel)) .nil)

theorem isLevel_behind : IsLevel (some .resolve) behind where
  allowed := by
    simp only [behind, List.forall_mem_cons]
    have hpath : "choices.toml" ≠ "" := by decide
    refine ⟨⟨rfl, trivial⟩, ⟨by simp, by simp⟩, ⟨rfl, ("cli", "first"), ?_⟩, ⟨rfl, hpath⟩,
      ⟨rfl, .optional, by decide⟩, ⟨rfl, ("cli", "second"), ?_⟩, by simp⟩
    · exact parseChoice?_eq_some_iff.1 (by decide +kernel)
    · exact parseChoice?_eq_some_iff.1 (by decide +kernel)
  once := by
    simp [behind, Item.Clashes, OptionName.isRepeatable]

theorem isLevel_front : IsLevel none [.option .format "json"] where
  allowed := by
    simp only [List.forall_mem_singleton]
    exact ⟨rfl, .json, by decide⟩
  once := List.pairwise_singleton _ _

/-- The first of both command lines gives the items, the second one more opt-in. -/
theorem isLine_both :
    IsLine arguments .resolve [.option .format "json"] behind "bindle.toml" ∧
      IsLine repeating .resolve [.option .format "json"] (.option .optIn "server" :: behind)
        "bindle.toml" := by
  have hfront : Spells [.option .format "json"] [String.ofList ['-', 'f'], "json"] :=
    .apart (.inr ⟨'f', rfl, rfl⟩) (by simp [IsPlain]) .nil
  obtain ⟨texts, hbehind, harguments, hrepeating⟩ : ∃ texts, Spells behind texts ∧
      arguments = [String.ofList ['-', 'f'], "json"] ++ "resolve" :: texts ∧
      repeating = [String.ofList ['-', 'f'], "json"] ++ "resolve" ::
        ("--" ++ OptionName.optIn.toText ++ "=" ++ "server") :: texts := by
    have hname := OptionName.isNamed_toText
    refine ⟨_, .apart (hname _) ?_ (.invoice ?_ (.attached (hname _) (.apart (hname _) ?_
      (.attached (hname _) (.apart (hname _) ?_ .nil))))), ?_, ?_⟩
    · simp [IsPlain]
    · simp [IsPlain]
    · simp [IsPlain]
    · simp [IsPlain]
    · decide +kernel
    · decide +kernel
  have hlevel : IsLevel (some .resolve) (.option .optIn "server" :: behind) := by
    refine ⟨List.forall_mem_cons.2 ⟨⟨rfl, trivial⟩, isLevel_behind.allowed⟩,
      List.pairwise_cons.2 ⟨?_, isLevel_behind.once⟩⟩
    simp [behind, Item.Clashes, OptionName.isRepeatable]
  constructor
  · exact ⟨⟨_, texts, harguments, hfront, hbehind⟩, isLevel_front, isLevel_behind, by simp [behind]⟩
  · exact ⟨⟨_, _, hrepeating, hfront, .attached (.inl rfl) hbehind⟩, isLevel_front, hlevel,
      by simp [behind]⟩

/-- Opting into the server twice selects the daemon as once does. Of the choices for the tools the
last option counts, read without the blanks in it, with the one before it and the recorded one set
aside. -/
theorem resolve_in_effect_arguments :
    (run environment files arguments).code = 0 ∧
      (run environment files arguments).out = [manifest.toJson.toText] ∧
      run environment files repeating = run environment files arguments := by
  have hc : Configuration.load files environment none = .ok configuration := by decide +kernel
  obtain ⟨-, policy, hpolicy, hcode, -, hout, halike⟩ :=
    resolve_in_effect isLine_both.1 (by decide) hc load_invoice hasRecorded chooses
  obtain rfl : policy = ⟨.ofList ["server"], .optional⟩ :=
    hpolicy.unique (combines_policy behind configuration.project.resolve)
  have hresult : (invoice.resolve ⟨.ofList ["server"], .optional⟩
      (chooser [("cli", "first"), ("cli", "second")] [("cli", "first")]) false).result =
        .ok manifest := by
    decide +kernel
  refine ⟨hcode.2 ⟨manifest, hresult⟩, (hout rfl).1 manifest hresult,
    halike repeating _ isLine_both.2 ⟨rfl, fun name => ?_⟩⟩
  simp [behind]

end Worked

end Bindle.CommandLine
