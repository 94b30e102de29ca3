import Bindle.Graph.Cycle
import Bindle.Sorted.StringMap
import Mathlib.Data.List.Sort
import Mathlib.Logic.Function.Basic

/-!
# Building the graph

The relations of a graph are collected from the declarations once, parcel by parcel. Names are
looked up in an index, which holds the last declaration of a name. Each relation is kept from both
sides, by the position of what an edge leaves and by that of what it leads to; and the edges of both
relations are kept in one list, for the search for cycles. A pair enters all of them together, and
only if the row of its source does not have it yet.

A parcel without a list of groups is put into the global group. Requiring the global group adds
nothing. A name that is not in the index ends the building.

The model of how the component `GraphBuilder` in section 4.2 of `SPEC_FULL.md` derives its
relations. What it derives is what `Bindle.Graph.Basic` reads off the declarations.

* `PairTable`: a relation between positions, from both sides.
* `Link`, `Relations`: the edges, and both relations while they are collected.
* `Relations.addParcel`: what one parcel adds.
* `Tables`, `Tables.build`: the graph of an invoice, as it is built.
* `Tables.edges`, `Tables.successors`: what is listed, and where the search for cycles goes.
-/

namespace Bindle.Graph

/-! ## Pairs of positions -/

/-- A set of positions, in ascending order, with one more. -/
def insertPosition (n : Nat) (ns : List Nat) : List Nat :=
  if n ∈ ns then ns else ns.orderedInsert (· ≤ ·) n

/-- A relation between positions: for each source its targets, and for each target its sources. -/
structure PairTable where
  rows : List (List Nat)
  columns : List (List Nat)
  deriving DecidableEq

namespace PairTable

/-- The table without pairs. -/
def empty (sources targets : Nat) : PairTable where
  rows := .replicate sources []
  columns := .replicate targets []

/-- The targets of a source. -/
def row (t : PairTable) (source : Nat) : List Nat :=
  t.rows.getD source []

/-- The sources of a target. -/
def column (t : PairTable) (target : Nat) : List Nat :=
  t.columns.getD target []

/-- The table with one more pair. -/
def insert (t : PairTable) (source target : Nat) : PairTable where
  rows := t.rows.modify source (insertPosition target)
  columns := t.columns.modify target (insertPosition source)

end PairTable

/-! ## Looking up names -/

/-- The positions of the members of a list under their keys. Of several members with one key the
last counts. -/
def indexBy {α β : Type} (key : α → String) (place : Nat → β) (l : List α) : StringMap β :=
  .ofList (l.zipIdx.map fun d => (key d.1, place d.2))

/-! ## Collecting edges -/

/-- An edge between positions. Its kind says which end is a group and which is a parcel. -/
structure Link where
  kind : EdgeKind
  source : Nat
  target : Nat
  deriving DecidableEq

/-- The nodes at both ends. -/
def Link.ends : Link → Node × Node
  | ⟨.membership, g, p⟩ => (.group ⟨g⟩, .parcel ⟨p⟩)
  | ⟨.requirement, p, g⟩ => (.parcel ⟨p⟩, .group ⟨g⟩)

/-- Both relations, as far as they are collected. -/
structure Relations where
  table : EdgeKind → PairTable
  /-- The edges, in the order in which they were found. -/
  links : List Link

/-- A parcel names a group that is not declared. -/
structure UnknownReference where
  group : String
  parcel : String
  deriving DecidableEq

/-- The message on an unknown group. -/
def UnknownReference.message (e : UnknownReference) : String :=
  s!"Parcel '{e.parcel}' references undeclared group '{e.group}'"

/-- The group that a parcel refers to. -/
def findGroup (index : StringMap GroupId) (parcel : Parcel) :
    GroupRef → Except UnknownReference GroupId
  | .global => .ok .global
  | .named name =>
    match index.get? name.text with
    | some g => .ok g
    | none => .error ⟨name.text, parcel.name⟩

/-- The groups that a parcel is put into. -/
def placesOf (index : StringMap GroupId) (parcel : Parcel) :
    Except UnknownReference (List GroupId) :=
  match parcel.memberOf with
  | none => .ok [.global]
  | some names => names.mapM fun name => findGroup index parcel (.named name)

namespace Relations

/-- Nothing, for so many groups and parcels. -/
def empty (groups parcels : Nat) : Relations where
  table
    | .membership => .empty groups parcels
    | .requirement => .empty parcels groups
  links := []

/-- One more edge, unless it is there already. -/
def insert (r : Relations) (l : Link) : Relations :=
  if l.target ∈ (r.table l.kind).row l.source then r
  else {
    table := Function.update r.table l.kind ((r.table l.kind).insert l.source l.target)
    links := r.links ++ [l] }

/-- Adds what a parcel requires by one reference. -/
def addRequirement (index : StringMap GroupId) (p : ParcelId) (parcel : Parcel) (r : Relations)
    (ref : GroupRef) : Except UnknownReference Relations := do
  let g ← findGroup index parcel ref
  return if g.isGlobal then r else r.insert ⟨.requirement, p.index, g.index⟩

/-- Adds what a parcel declares: first the groups that it is in, then those that it requires. -/
def addParcel (index : StringMap GroupId) (r : Relations) (d : ParcelId × Parcel) :
    Except UnknownReference Relations := do
  let groups ← placesOf index d.2
  let r := groups.foldl (fun r g => r.insert ⟨.membership, g.index, d.1.index⟩) r
  d.2.requires.foldlM (addRequirement index d.1 d.2) r

end Relations

/-! ## The graph as built -/

/-- The graph of an invoice, as it is built. -/
structure Tables extends Relations where
  invoice : Invoice
  groupIndex : StringMap GroupId
  parcelIndex : StringMap ParcelId
  rootRequired : List GroupId

namespace Tables

/-- The declared groups under their names. -/
def indexGroups (invoice : Invoice) : StringMap GroupId :=
  indexBy (·.name.text) (fun i => ⟨i + 1⟩) invoice.groups

/-- The parcels under their names. -/
def indexParcels (invoice : Invoice) : StringMap ParcelId :=
  indexBy (·.name) (fun i => ⟨i⟩) invoice.parcels

/-- The graph of an invoice with these relations. -/
def ofRelations (invoice : Invoice) (relations : Relations) : Tables where
  toRelations := relations
  invoice
  groupIndex := indexGroups invoice
  parcelIndex := indexParcels invoice
  rootRequired :=
    .global :: (invoice.groups.zipIdx.filter fun d => d.1.required).map fun d => ⟨d.2 + 1⟩

/-- Collects the relations of an invoice. -/
def build (invoice : Invoice) : Except UnknownReference Tables := do
  let G : Graph := { invoice }
  let relations ← G.declaredParcels.foldlM (Relations.addParcel (indexGroups invoice))
    (.empty G.groupCount G.parcelCount)
  return ofRelations invoice relations

/-- The declarations that the tables were built from, as a graph. -/
def view (t : Tables) : Graph where
  invoice := t.invoice

/-- The members of a group. -/
def members (t : Tables) (g : GroupId) : List ParcelId :=
  ((t.table .membership).row g.index).map ParcelId.mk

/-- The groups that a parcel is in. -/
def groupsOf (t : Tables) (p : ParcelId) : List GroupId :=
  ((t.table .membership).column p.index).map GroupId.mk

/-- The groups that become required with a parcel. -/
def requires (t : Tables) (p : ParcelId) : List GroupId :=
  ((t.table .requirement).row p.index).map GroupId.mk

/-- The parcels that make a group required. -/
def requiredBy (t : Tables) (g : GroupId) : List ParcelId :=
  ((t.table .requirement).column g.index).map ParcelId.mk

/-- All edges by name: memberships by group, then requirements by parcel. -/
def edges (t : Tables) : List Edge :=
  (t.view.groupIds.flatMap fun g =>
      (t.members g).map fun p => ⟨t.view.groupName g, .membership, t.view.parcelName p⟩) ++
    t.view.parcelIds.flatMap fun p =>
      (t.requires p).map fun g => ⟨t.view.parcelName p, .requirement, t.view.groupName g⟩

/-- The position of a node among all nodes; the groups come first. -/
def position (t : Tables) : Node → Nat
  | .group g => g.index
  | .parcel p => t.view.groupCount + p.index

/-- The nodes that the links lead to from a node, in order of position. -/
def successors (t : Tables) (n : Node) : List Node :=
  ((t.links.filter fun l => l.ends.1 = n).map fun l => l.ends.2).mergeSort
    fun a b => t.position a ≤ t.position b

end Tables

end Bindle.Graph
