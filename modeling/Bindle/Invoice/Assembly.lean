import Bindle.Draft.Basic
import Bindle.Invoice.Basic
import Bindle.Invoice.Violation

/-!
# From a draft to an invoice

The checks that make an invoice of a draft, in the order in which they report: the required
fields, the groups, then each parcel with its label, its name and its conditions. After a report
the rest is still checked: a group that is refused is left out, and a group that is left out counts
as undeclared.

The model of the operations `build` and `validate` in section 4.1 of `SPEC_FULL.md`.

Main definitions: `InvoiceDraft.assemble`, `InvoiceDraft.check`, `Invoice.ofDraft`,
`InvoiceDraft.violations`.
-/

namespace Bindle

open Check (report reportIf)

/-! ## The bindle -/

/-- The version of the bindle, without the blanks around it. -/
def BindleDraft.checkVersion (draft : BindleDraft) : Check Version :=
  if Text.isBlank draft.version then do
    report (.missingField .versionOfBindle)
    return .ofNumbers 0 0 0
  else match Version.parse (Text.trim draft.version) with
  | .ok version => return version
  | .error reason => do
    report (.invalidVersion draft.version reason)
    return .ofNumbers 0 0 0

/-- The bindle: its name is not blank and its version is one. -/
def BindleDraft.check (draft : BindleDraft) : Check BindleInfo := do
  reportIf (Text.isBlank draft.name) (.missingField .bindleName)
  let version ← draft.checkVersion
  return {
    name := draft.name
    version
    authors := draft.authors.getD []
    description := draft.description }

/-! ## Groups -/

/-- The policy of a group; all of its members, if nothing is said. -/
def GroupDraft.checkPolicy (draft : GroupDraft) : Check GroupPolicy :=
  match draft.satisfiedBy with
  | none => return .allOf
  | some value =>
    match GroupPolicy.ofText? value with
    | some policy => return policy
    | none => do
      report (.unknownPolicy draft.name value)
      return .allOf

/-- The group at a position, or none if it is refused; `earlier` are the names accepted so far. -/
def GroupDraft.check (draft : GroupDraft) (position : Nat) (earlier : List GroupName) :
    Check (Option Group) :=
  match GroupName.parse draft.name with
  | .error .empty => do
    report (.emptyGroupName position)
    return none
  | .error reason => do
    report (.invalidGroupName draft.name reason)
    return none
  | .ok name => do
    let policy ← draft.checkPolicy
    if name ∈ earlier then
      report (.duplicateGroup draft.name)
      return none
    else
      return some { name, policy, required := draft.required.getD false }

/-- The groups from a position on. -/
def checkGroups (position : Nat) (earlier : List GroupName) :
    List GroupDraft → Check (List Group)
  | [] => return []
  | draft :: rest => do
    match ← draft.check position earlier with
    | none => checkGroups (position + 1) earlier rest
    | some group => return group :: (← checkGroups (position + 1) (group.name :: earlier) rest)

/-! ## Conditions -/

/-- The declared name that a text spells. -/
def findName? (declared : List GroupName) (text : String) : Option GroupName :=
  declared.find? (·.text == text)

/-- The groups that a parcel lists as its own; the global group cannot be listed. -/
def checkMemberOf (declared : List GroupName) (parcel : String) :
    List String → Check (List GroupName)
  | [] => return []
  | text :: rest =>
    if text = "" then do
      report (.globalMembership parcel)
      checkMemberOf declared parcel rest
    else match findName? declared text with
    | some name => return name :: (← checkMemberOf declared parcel rest)
    | none => do
      report (.unknownGroup text parcel)
      checkMemberOf declared parcel rest

/-- The groups that a parcel requires; the empty text stands for the global group. -/
def checkRequires (declared : List GroupName) (parcel : String) :
    List String → Check (List GroupRef)
  | [] => return []
  | text :: rest =>
    if text = "" then return .global :: (← checkRequires declared parcel rest)
    else match findName? declared text with
    | some name => return .named name :: (← checkRequires declared parcel rest)
    | none => do
      report (.unknownGroup text parcel)
      checkRequires declared parcel rest

/-- The groups of a parcel, each named once, if it lists any. -/
def checkMembership (declared : List GroupName) (parcel : String) :
    Option (List String) → Check (Option (List GroupName))
  | none => return none
  | some texts => return some (← checkMemberOf declared parcel texts).eraseDups

/-- The place of a parcel: its groups, if it lists any, and those it requires, each named once. -/
def ConditionsDraft.check (draft : ConditionsDraft) (declared : List GroupName)
    (parcel : String) : Check (Option (List GroupName) × List GroupRef) := do
  let memberOf ← checkMembership declared parcel draft.memberOf
  let requires ← checkRequires declared parcel (draft.requires.getD [])
  return (memberOf, requires.eraseDups)

/-! ## Parcels -/

/-- What messages call the parcel at a position: its name, or the position if that is blank. -/
def ParcelDraft.display (draft : ParcelDraft) (position : Nat) : String :=
  if Text.isBlank draft.label.name then s!"#{position}" else draft.label.name

/-- The label of a parcel, or none if it is refused. -/
def LabelDraft.check (draft : LabelDraft) (parcel : String) : Check (Option Label) :=
  match Label.ofDraft draft with
  | .ok label => return some label
  | .error reason => do
    report (.invalidLabel parcel reason)
    return none

/-- The parcel at a position, or none if its label is refused; `seen` are the displays so far. -/
def ParcelDraft.check (draft : ParcelDraft) (declared : List GroupName) (position : Nat)
    (seen : List String) : Check (Option Parcel) := do
  let shown := draft.display position
  let label ← draft.label.check shown
  reportIf (shown ∈ seen) (.duplicateParcel shown)
  let (memberOf, requires) ← (draft.conditions.getD {}).check declared shown
  return label.map ({ label := ·, memberOf, requires })

/-- The parcels from a position on. -/
def checkParcels (declared : List GroupName) (position : Nat) (seen : List String) :
    List ParcelDraft → Check (List Parcel)
  | [] => return []
  | draft :: rest => do
    let parcel ← draft.check declared position seen
    let more ← checkParcels declared (position + 1) (draft.display position :: seen) rest
    return parcel.toList ++ more

/-! ## Invoices -/

namespace InvoiceDraft

/-- All checks of a draft. -/
def assemble (draft : InvoiceDraft) : Check Invoice := do
  reportIf (Text.isBlank draft.bindleVersion) (.missingField .bindleVersion)
  let bindle ← draft.bindle.check
  let groups ← checkGroups 0 [] (draft.groups.getD [])
  let parcels ← checkParcels (groups.map (·.name)) 0 [] (draft.parcels.getD [])
  return {
    bindleVersion := draft.bindleVersion
    bindle
    annotations := draft.annotations.getD .empty
    groups
    parcels
    yanked := draft.yanked.getD false }

/-- The invoice of a draft, or what was reported in the given mode. -/
def check (draft : InvoiceDraft) (mode : Reporting) : Except (List Violation) Invoice :=
  match draft.assemble mode with
  | ([], some invoice) => .ok invoice
  | (reported, _) => .error reported

/-- Every violation of a draft. -/
def violations (draft : InvoiceDraft) : List Violation :=
  match draft.check .collectAll with
  | .ok _ => []
  | .error reported => reported

end InvoiceDraft

/-- The invoice of a draft, or the first violation. -/
def Invoice.ofDraft (draft : InvoiceDraft) : Except Violation Invoice :=
  match draft.check .failFast with
  | .ok invoice => .ok invoice
  | .error (first :: _) => .error first
  | .error [] => .error (.missingField .bindleVersion)

end Bindle
