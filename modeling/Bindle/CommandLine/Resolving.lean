import Bindle.CommandLine.Arguments
import Bindle.CommandLine.Configuration
import Bindle.CommandLine.Documents
import Bindle.Resolution.Outcome
import Bindle.Text.Column
import Bindle.Text.Quoted

/-!
# The command that resolves an invoice

What the command line says adds to the settings or overrides them: its groups are opted into beside
those of the settings, its reading and its choices come before theirs, and a yanked invoice is
resolved if either allows it. Without a document of choices and without choices on the command
line, every group with several candidates is reported.

The model of `resolve` in section 6 of `SPEC_FULL.md`.

* `ResolveArguments.policy`, `ResolveArguments.loadChoices`, `ResolveArguments.allowsYanked`: what
  is in effect.
* `resolve`: the command.
-/

namespace Bindle.CommandLine

namespace ResolveArguments

/-- The policy in effect. -/
def policy (a : ResolveArguments) (settings : ResolveSettings) : Policy where
  optedIn := a.optIn.foldl NameSet.insert settings.policy.optedIn
  anyOf := a.anyOf.getD settings.policy.anyOf

/-- Whether a yanked invoice is resolved. -/
def allowsYanked (a : ResolveArguments) (settings : ResolveSettings) : Bool :=
  a.allowYanked || settings.allowYanked

/-- The choices in the document that the command line names. -/
def recordedChoices (a : ResolveArguments) (files : Files) : Except Causes ChoiceMap :=
  match a.choices with
  | none => .ok .empty
  | some path => ChoiceMap.load files path

/-- The choices in effect. -/
def loadChoices (a : ResolveArguments) (files : Files) : Except Causes ChoiceMap := do
  let recorded ← a.recordedChoices files
  return recorded.extend (.ofList a.choose)

end ResolveArguments

/-! ## What is printed -/

/-- Why a group is required, in words. -/
def reasonText : RequiredReason → String
  | .global => "required (global)"
  | .declared => "required (declared)"
  | .optedIn => "required (opted in)"
  | .requiredBy parcels => "required by " ++ Text.commaList parcels
  | .notRequired => "optional"

/-- The line on a selected parcel. -/
def labelLine (label : Label) : String :=
  let (algorithm, digest) := label.primary
  s!"  {Text.padRight 24 label.name} {algorithm.toText}:{digest}  {label.mediaType}"

/-- The line on a group. -/
def reportLine (r : GroupReport) : String :=
  let selected := if r.selected.isEmpty then "-" else Text.commaList r.selected
  "  " ++ Text.padRight 20 r.group.display ++ " " ++ Text.padRight 6 r.policy.toText ++ " " ++
    Text.padRight 28 (reasonText r.reason) ++ " " ++ selected

/-- The lines on a manifest. -/
def manifestLines (m : Manifest) : List String :=
  [s!"Resolved {m.invoice}: {m.parcels.length} parcel(s)"] ++ m.parcels.map labelLine ++
    ["", "Groups:"] ++ m.report.map reportLine

/-- The report on a resolution that failed. -/
def unresolved (d : Display) (invoice : String) (errors : List ResolutionError) : Report :=
  d.choose
    (.remarks (s!"Could not resolve {invoice}:" :: errors.map fun e => "  - " ++ e.message))
    (.json (.object [("errors", .array (errors.map (·.toJson))), ("invoice", .string invoice),
      ("success", .bool false)]))
  ++ .failed [s!"Resolution failed with {errors.length} error(s)"]

/-- The report on the result of a resolution. -/
def concluded (d : Display) (invoice : String) : Except ResolveError Manifest → Report
  | .ok m => d.choose (.results (manifestLines m)) (.json m.toJson)
  | .error (.resolution errors) => unresolved d invoice errors
  | .error (.yanked name) =>
    .failed [(ResolveError.yanked name).message ++ " (pass --allow-yanked to resolve it anyway)"]
  | .error (.graph e) => .failed [e.message]

/-! ## Resolving -/

/-- What a note says of a resolution. -/
def resolvingNote (invoice : String) (policy : Policy) (choices : ChoiceMap) : String :=
  s!"Resolving {invoice} with opt-ins {Text.quotedSet policy.optedIn.names}, " ++
    s!"{choices.size} choice(s), anyOf={policy.anyOf.toText}"

/-- Resolves an invoice with the choices in effect. -/
def resolveInvoice (d : Display) (settings : ResolveSettings) (a : ResolveArguments)
    (invoice : Invoice) (choices : ChoiceMap) : Report :=
  let policy := a.policy settings
  d.noteOf "resolve" (resolvingNote invoice.name policy choices) ++
    concluded d invoice.name
      (invoice.resolve policy choices.chooser (a.allowsYanked settings)).result

/-- Resolves the invoice in a file. -/
def resolve (d : Display) (files : Files) (settings : ResolveSettings) (path : String)
    (a : ResolveArguments) : Report :=
  match Invoice.load files path with
  | .error causes => .failed causes
  | .ok invoice =>
    match a.loadChoices files with
    | .error causes => .failed causes
    | .ok choices => resolveInvoice d settings a invoice choices

end Bindle.CommandLine
