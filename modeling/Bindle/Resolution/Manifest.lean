import Bindle.Label.Json
import Bindle.Resolution.Run

/-!
# Manifests

What a successful resolution tells: the labels of the selected parcels, and for each group whether
it is required, why, and which of its members are selected. Both lists are in order of
declaration, the global group first.

The model of `ResolvedManifest` and its report in section 4.5 of `SPEC_FULL.md`.

* `RequiredReason`, `GroupReport`, `Manifest`: what is told.
* `Run.manifest`: the manifest of a state.
* `Manifest.toJson`: the manifest as an object.
-/

namespace Bindle

/-- Why a group is required, or that it is not. -/
inductive RequiredReason where
  /-- It is the global group. -/
  | global
  /-- It is declared required. -/
  | declared
  /-- The caller opted into it. -/
  | optedIn
  /-- These selected parcels require it. -/
  | requiredBy (parcels : List String)
  | notRequired
  deriving DecidableEq

/-- How one group came out. -/
structure GroupReport where
  group : GroupRef
  policy : GroupPolicy
  required : Bool
  reason : RequiredReason
  /-- Whether the selection satisfies the group, required or not as it is. -/
  satisfied : Bool
  selected : List String
  deriving DecidableEq

/-- The result of a resolution. -/
structure Manifest where
  /-- The name of the invoice. -/
  invoice : String
  parcels : List Label
  report : List GroupReport
  deriving DecidableEq

namespace Manifest

/-- The names of the selected parcels. -/
def parcelNames (m : Manifest) : List String :=
  m.parcels.map (·.name)

/-- Whether a parcel of that name is selected. -/
def hasParcel (m : Manifest) (name : String) : Bool :=
  m.parcels.any (·.name == name)

/-- The report on the declared group of that name. -/
def group? (m : Manifest) (name : String) : Option GroupReport :=
  m.report.find? fun r => r.group.name?.any (·.text == name)

/-- The report on the global group. -/
def global? (m : Manifest) : Option GroupReport :=
  m.report.find? (·.group.isGlobal)

end Manifest

/-! ## From a run -/

namespace Run

variable (G : Graph) (policy : Policy)

/-- Why a group is required; of several reasons the first holds. -/
def reason (run : Run) (g : GroupId) : RequiredReason :=
  if g.isGlobal then .global
  else if G.isRootRequired g then .declared
  else if (G.optedIn policy).contains g then .optedIn
  else if run.required.contains g then
    .requiredBy (G.parcelNames ((G.requiredBy g).filter (run.selection.contains ·)))
  else .notRequired

/-- How a group came out. -/
def reportOn (run : Run) (g : GroupId) : GroupReport :=
  let required := run.required.contains g
  { group := G.groupRef g
    policy := G.policy g
    required
    reason := run.reason G policy g
    satisfied := G.isSatisfied policy.anyOf g required run.selection
    selected := G.parcelNames (G.selectedMembers g run.selection) }

/-- The labels of the selected parcels. -/
def labels (run : Run) : List Label :=
  (G.declaredParcels.filter fun d => run.selection.contains d.1).map (·.2.label)

/-- The manifest of a state. -/
def manifest (run : Run) : Manifest where
  invoice := G.invoice.name
  parcels := run.labels G
  report := G.groupIds.map (run.reportOn G policy)

end Run

/-! ## As JSON -/

namespace RequiredReason

/-- The kind of reason as it is written. -/
def kind : RequiredReason → String
  | .global => "global"
  | .declared => "declared"
  | .optedIn => "opted-in"
  | .requiredBy _ => "required-by"
  | .notRequired => "not-required"

/-- The reason as an object. -/
def toJson (r : RequiredReason) : Json :=
  .object (("kind", .string r.kind) :: match r with
    | .requiredBy parcels => [("parcels", .strings parcels)]
    | _ => [])

end RequiredReason

/-- A report as an object. -/
def GroupReport.toJson (r : GroupReport) : Json :=
  .object [("group", .string r.group.display), ("policy", .string r.policy.toText),
    ("required", .bool r.required), ("reason", r.reason.toJson), ("satisfied", .bool r.satisfied),
    ("selected", .strings r.selected)]

/-- A manifest as an object. -/
def Manifest.toJson (m : Manifest) : Json :=
  .object [("invoice", .string m.invoice), ("parcels", .array (m.parcels.map (·.toJson))),
    ("report", .array (m.report.map (·.toJson)))]

end Bindle
