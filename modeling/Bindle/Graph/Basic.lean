import Bindle.Invoice.Basic

/-!
# The graph of groups and parcels

The groups and the parcels of an invoice are the nodes of a graph with two relations: a group
contains its members, and a parcel requires groups. A node is known by its position in the
invoice; the global group comes before the declared ones, at position zero. Requiring the global
group says nothing, because it is always required, so it is left out of the second relation.

The graph is a view of its invoice: every relation is read off the declarations.

The model of what the component `GraphBuilder` in section 4.2 of `SPEC_FULL.md` answers; how it
comes to its answers is modelled in `Bindle.Graph.Tables`.

* `GroupId`, `ParcelId`: the nodes by position.
* `Graph.holds`, `Graph.needs`: the two relations; `members`, `groupsOf`, `requires` and
  `requiredBy` are their rows and columns, in order of position.
* `Graph.edges`: all pairs of both relations.
-/

namespace Bindle

/-- A group by its position; the global group comes first. -/
structure GroupId where
  index : Nat
  deriving DecidableEq, Inhabited

/-- The global group. -/
def GroupId.global : GroupId := ⟨0⟩

/-- Whether this is the global group. -/
def GroupId.isGlobal (g : GroupId) : Bool := g.index == 0

/-- A parcel by its position. -/
structure ParcelId where
  index : Nat
  deriving DecidableEq, Inhabited

/-- The groups and parcels of an invoice with their relations. -/
structure Graph where
  invoice : Invoice
  deriving DecidableEq

namespace Graph

/-! ## Nodes -/

/-- The number of groups, the global one among them. -/
def groupCount (G : Graph) : Nat := G.invoice.groups.length + 1

/-- The number of parcels. -/
def parcelCount (G : Graph) : Nat := G.invoice.parcels.length

/-- The groups in order. -/
def groupIds (G : Graph) : List GroupId := (List.range G.groupCount).map GroupId.mk

/-- The parcels in order. -/
def parcelIds (G : Graph) : List ParcelId := (List.range G.parcelCount).map ParcelId.mk

/-- The declaration of a group; the global group has none. -/
def group? (G : Graph) (g : GroupId) : Option Group :=
  match g.index with
  | 0 => none
  | i + 1 => G.invoice.groups[i]?

/-- The declaration of a parcel. -/
def parcel? (G : Graph) (p : ParcelId) : Option Parcel :=
  G.invoice.parcels[p.index]?

/-- The group at a position. -/
def groupRef (G : Graph) (g : GroupId) : GroupRef :=
  match G.group? g with
  | none => .global
  | some group => .named group.name

/-- How a group is shown. -/
def groupName (G : Graph) (g : GroupId) : String :=
  (G.groupRef g).display

/-- The name of a parcel. -/
def parcelName (G : Graph) (p : ParcelId) : String :=
  ((G.parcel? p).map (·.name)).getD ""

/-- The policy of a group; the global group takes all of its members. -/
def policy (G : Graph) (g : GroupId) : GroupPolicy :=
  ((G.group? g).map (·.policy)).getD .allOf

/-- The declared group of that name. -/
def groupId? (G : Graph) (name : String) : Option GroupId :=
  (G.invoice.groups.findIdx? (·.name.text == name)).map fun i => ⟨i + 1⟩

/-- The parcel of that name. -/
def parcelId? (G : Graph) (name : String) : Option ParcelId :=
  (G.invoice.parcels.findIdx? (·.name == name)).map fun i => ⟨i⟩

/-! ## Relations -/

/-- The parcels with their declarations, in order. -/
def declaredParcels (G : Graph) : List (ParcelId × Parcel) :=
  G.parcelIds.zip G.invoice.parcels

/-- Whether a parcel as declared is a member of a group. -/
def contains (G : Graph) (g : GroupId) (parcel : Parcel) : Bool :=
  match g.index with
  | 0 => parcel.isGlobalMember
  | _ + 1 => (G.group? g).any fun group => parcel.isMemberOf group.name.text

/-- Whether a parcel as declared requires a group other than the global one. -/
def isRequired (G : Graph) (g : GroupId) (parcel : Parcel) : Bool :=
  (G.group? g).any fun group => parcel.requires.contains (.named group.name)

/-- Whether a group contains a parcel. -/
def holds (G : Graph) (g : GroupId) (p : ParcelId) : Bool :=
  (G.parcel? p).any (G.contains g)

/-- Whether a parcel requires a group other than the global one. -/
def needs (G : Graph) (p : ParcelId) (g : GroupId) : Bool :=
  (G.parcel? p).any (G.isRequired g)

/-- The members of a group. -/
def members (G : Graph) (g : GroupId) : List ParcelId :=
  (G.declaredParcels.filter fun d => G.contains g d.2).map (·.1)

/-- The groups that contain a parcel. -/
def groupsOf (G : Graph) (p : ParcelId) : List GroupId :=
  G.groupIds.filter fun g => G.holds g p

/-- The groups that become required with a parcel. -/
def requires (G : Graph) (p : ParcelId) : List GroupId :=
  G.groupIds.filter fun g => G.needs p g

/-- The parcels that make a group required. -/
def requiredBy (G : Graph) (g : GroupId) : List ParcelId :=
  (G.declaredParcels.filter fun d => G.isRequired g d.2).map (·.1)

/-- Whether a group is required whatever is selected: the global one, or one declared so. -/
def isRootRequired (G : Graph) (g : GroupId) : Bool :=
  match g.index with
  | 0 => true
  | _ + 1 => (G.group? g).any (·.required)

/-- The groups that are required whatever is selected. -/
def rootRequired (G : Graph) : List GroupId :=
  G.groupIds.filter G.isRootRequired

/-- The names of parcels. -/
def parcelNames (G : Graph) (ps : List ParcelId) : List String :=
  ps.map G.parcelName

/-! ## Edges -/

/-- What an edge says. -/
inductive EdgeKind where
  /-- The group contains the parcel. -/
  | membership
  /-- The parcel requires the group. -/
  | requirement
  deriving DecidableEq

namespace EdgeKind

/-- The kind as a noun. -/
def toText : EdgeKind → String
  | .membership => "membership"
  | .requirement => "requirement"

/-- The kind as a verb. -/
def verb : EdgeKind → String
  | .membership => "contains"
  | .requirement => "requires"

end EdgeKind

/-- An edge between two named nodes. -/
structure Edge where
  source : String
  kind : EdgeKind
  target : String
  deriving DecidableEq

/-- The edges from groups to their members. -/
def membershipEdges (G : Graph) : List Edge :=
  G.groupIds.flatMap fun g =>
    (G.members g).map fun p => ⟨G.groupName g, .membership, G.parcelName p⟩

/-- The edges from parcels to the groups that they require. -/
def requirementEdges (G : Graph) : List Edge :=
  G.parcelIds.flatMap fun p =>
    (G.requires p).map fun g => ⟨G.parcelName p, .requirement, G.groupName g⟩

/-- All edges: memberships by group, then requirements by parcel. -/
def edges (G : Graph) : List Edge :=
  G.membershipEdges ++ G.requirementEdges

end Graph

end Bindle
