import Bindle.Digest.Blake3
import Bindle.Group.Name
import Bindle.Group.Policy
import Bindle.Label.Basic
import Bindle.Version.Requirement

/-!
# Invoices

An invoice describes one version of a bindle: the groups that it declares and the parcels that it
ships, each with the groups that it is a member of and those that it requires. A parcel that says
nothing about membership is a member of the global group; one that lists no group is in none.

The model of the data in section 3 of `SPEC_FULL.md`, and of the accessors in section 4.1.

Main definitions: `Group`, `Parcel`, `Invoice`, `Invoice.name`, `Invoice.groupMembers`.
-/

namespace Bindle

/-- What an invoice says about its bindle. -/
structure BindleInfo where
  name : String
  version : Version
  authors : List String
  description : Option String
  deriving DecidableEq

/-- A declared group. -/
structure Group where
  name : GroupName
  policy : GroupPolicy
  required : Bool
  deriving DecidableEq

/-- A label with its place in the invoice. -/
structure Parcel where
  label : Label
  /-- The groups listed; without a list the parcel is a member of the global group. -/
  memberOf : Option (List GroupName)
  requires : List GroupRef
  deriving DecidableEq

namespace Parcel

/-- The name of the parcel's label. -/
def name (p : Parcel) : String := p.label.name

/-- Whether the parcel lists a group of that name. -/
def isMemberOf (p : Parcel) (group : String) : Bool :=
  p.memberOf.any fun names => names.any (·.text == group)

/-- Whether the parcel is a member of the global group. -/
def isGlobalMember (p : Parcel) : Bool := p.memberOf.isNone

/-- Whether the parcel took itself out of every group. -/
def isExcluded (p : Parcel) : Bool := p.memberOf.any (·.isEmpty)

end Parcel

/-- One version of a bindle: its groups and its parcels, each in the order of declaration. -/
structure Invoice where
  bindleVersion : String
  bindle : BindleInfo
  annotations : Annotations
  groups : List Group
  parcels : List Parcel
  yanked : Bool
  deriving DecidableEq

namespace Invoice

/-- The name of the bindle and its version, with a slash between them. -/
def name (i : Invoice) : String :=
  i.bindle.name ++ "/" ++ i.bindle.version.toText

/-- A name that is safe as a storage key: the digest of the invoice's name. -/
def canonicalName (i : Invoice) : String :=
  Blake3.hexDigest i.name

/-- Whether the bindle's version is in the range that a text describes. -/
def versionInRange (i : Invoice) (range : String) : Bool :=
  i.bindle.version.inRange range

/-- The declared group of that name. -/
def group? (i : Invoice) (name : String) : Option Group :=
  i.groups.find? (·.name.text == name)

/-- Whether a group of that name is declared. -/
def hasGroup (i : Invoice) (name : String) : Bool :=
  (i.group? name).isSome

/-- The parcels that list the declared group of that name; none if it is not declared. -/
def groupMembers (i : Invoice) (name : String) : List Parcel :=
  if i.hasGroup name then i.parcels.filter (·.isMemberOf name) else []

/-- The members of the global group. -/
def globalMembers (i : Invoice) : List Parcel :=
  i.parcels.filter (·.isGlobalMember)

/-- The parcels that took themselves out of every group. -/
def excluded (i : Invoice) : List Parcel :=
  i.parcels.filter (·.isExcluded)

end Invoice

end Bindle
