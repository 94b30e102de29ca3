import Bindle.Proofs.Graph.Acyclicity
import Mathlib.Data.List.Perm.Basic

/-!
# Invoices in another order

The order of declarations decides the positions of groups and parcels and nothing else. Two
invoices that differ in this order have graphs with the same relations between the same
declarations; only the positions that stand for them differ.

* `Invoice.IsReordering`: the same declarations in another order.
* `SameGroup`, `SameParcel`, `SameNode`: positions of two graphs for the same declaration.
* `SameGroup.holds`, `SameGroup.needs`: the relations do not depend on the order.
* `IsAcyclic.of_isReordering`: neither do cycles.
-/

namespace Bindle

/-- The invoices differ at most in the order of their groups and of their parcels. -/
structure Invoice.IsReordering (i j : Invoice) : Prop where
  bindleVersion : i.bindleVersion = j.bindleVersion
  bindle : i.bindle = j.bindle
  annotations : i.annotations = j.annotations
  yanked : i.yanked = j.yanked
  groups : i.groups.Perm j.groups
  parcels : i.parcels.Perm j.parcels

theorem Invoice.IsReordering.symm {i j : Invoice} (h : i.IsReordering j) : j.IsReordering i :=
  ⟨h.bindleVersion.symm, h.bindle.symm, h.annotations.symm, h.yanked.symm, h.groups.symm,
    h.parcels.symm⟩

theorem Invoice.IsReordering.name {i j : Invoice} (h : i.IsReordering j) : i.name = j.name := by
  rw [Invoice.name, h.bindle, Invoice.name]

namespace Graph

variable {G H : Graph} {g h : GroupId} {p q : ParcelId}

/-! ## Groups -/

/-- The groups have the same declaration, or both are global. -/
structure SameGroup (G H : Graph) (g h : GroupId) : Prop where
  left : g ∈ G.groupIds
  right : h ∈ H.groupIds
  group? : G.group? g = H.group? h

theorem SameGroup.symm (hg : SameGroup G H g h) : SameGroup H G h g :=
  ⟨hg.right, hg.left, hg.group?.symm⟩

theorem exists_sameGroup (hr : G.invoice.IsReordering H.invoice) (hg : g ∈ G.groupIds) :
    ∃ h, SameGroup G H g h := by
  rcases eq_global_or_declared hg with rfl | ⟨group, hgroup⟩
  · exact ⟨.global, hg, global_mem_groupIds, rfl⟩
  · obtain ⟨h, hh⟩ := exists_group?_of_mem (hr.groups.subset (mem_groups_of_group? hgroup))
    exact ⟨h, hg, mem_groupIds_of_group? hh, hgroup.trans hh.symm⟩

theorem eq_global_iff (hg : g ∈ G.groupIds) : g = .global ↔ G.group? g = none := by
  constructor
  · rintro rfl
    rfl
  · intro hnone
    rcases eq_global_or_declared hg with rfl | ⟨group, hgroup⟩
    · rfl
    · rw [hnone] at hgroup
      cases hgroup

theorem SameGroup.eq_global_iff (hg : SameGroup G H g h) : g = .global ↔ h = .global := by
  rw [Graph.eq_global_iff hg.left, Graph.eq_global_iff hg.right, hg.group?]

theorem SameGroup.policy (hg : SameGroup G H g h) : G.policy g = H.policy h := by
  rw [Graph.policy, hg.group?, Graph.policy]

theorem SameGroup.groupRef (hg : SameGroup G H g h) : G.groupRef g = H.groupRef h := by
  rw [Graph.groupRef, hg.group?, Graph.groupRef]

theorem SameGroup.isRootRequired (hg : SameGroup G H g h) :
    G.isRootRequired g = H.isRootRequired h := by
  rcases eq_global_or_declared hg.left with hglobal | ⟨group, hgroup⟩
  · rw [hglobal, hg.eq_global_iff.1 hglobal]
    rfl
  · rw [isRootRequired_of_group? hgroup, isRootRequired_of_group? (hg.group? ▸ hgroup)]

/-- Groups of well-formed invoices that are shown alike are the same. -/
theorem SameGroup.of_groupRef_eq (hr : G.invoice.IsReordering H.invoice)
    (hH : H.invoice.WellFormed) (hg : g ∈ G.groupIds) (hh : h ∈ H.groupIds)
    (hsame : G.groupRef g = H.groupRef h) : SameGroup G H g h := by
  obtain ⟨h', hh'⟩ := exists_sameGroup hr hg
  have heq : h' = h := groupRef_inj hH hh'.right hh (hh'.groupRef.symm.trans hsame)
  exact heq ▸ hh'

/-! ## Parcels -/

/-- The parcels have the same declaration. -/
def SameParcel (G H : Graph) (p q : ParcelId) : Prop :=
  ∃ parcel, G.parcel? p = some parcel ∧ H.parcel? q = some parcel

theorem SameParcel.symm (hp : SameParcel G H p q) : SameParcel H G q p := by
  obtain ⟨parcel, hleft, hright⟩ := hp
  exact ⟨parcel, hright, hleft⟩

theorem exists_sameParcel (hr : G.invoice.IsReordering H.invoice) (hp : p ∈ G.parcelIds) :
    ∃ q, SameParcel G H p q := by
  obtain ⟨parcel, hparcel⟩ := mem_parcelIds_iff.1 hp
  obtain ⟨q, hq⟩ := exists_parcel?_of_mem (hr.parcels.subset (mem_parcels_of_parcel? hparcel))
  exact ⟨q, parcel, hparcel, hq⟩

/-- In a well-formed invoice a declaration stands at one position. -/
theorem SameParcel.unique (hH : H.invoice.WellFormed) {q' : ParcelId} (hp : SameParcel G H p q)
    (hp' : SameParcel G H p q') : q = q' := by
  obtain ⟨parcel, hleft, hright⟩ := hp
  obtain ⟨parcel', hleft', hright'⟩ := hp'
  rw [hleft] at hleft'
  cases hleft'
  exact parcel?_inj hH hright hright' rfl

theorem SameParcel.parcelName (hp : SameParcel G H p q) : G.parcelName p = H.parcelName q := by
  obtain ⟨parcel, hleft, hright⟩ := hp
  rw [parcelName_of_parcel? hleft, parcelName_of_parcel? hright]

/-! ## Relations -/

theorem SameGroup.holds (hg : SameGroup G H g h) (hp : SameParcel G H p q) :
    G.holds g p = H.holds h q := by
  obtain ⟨parcel, hleft, hright⟩ := hp
  rw [Bool.eq_iff_iff, holds_iff, holds_iff]
  simp only [hleft, hright, hg.group?, hg.eq_global_iff]

theorem SameGroup.needs (hg : SameGroup G H g h) (hp : SameParcel G H p q) :
    G.needs p g = H.needs q h := by
  obtain ⟨parcel, hleft, hright⟩ := hp
  rw [Bool.eq_iff_iff, needs_iff, needs_iff]
  simp only [hleft, hright, hg.group?]

theorem SameGroup.mem_members_iff (hg : SameGroup G H g h) (hp : SameParcel G H p q) :
    p ∈ G.members g ↔ q ∈ H.members h := by
  rw [mem_members, mem_members, hg.holds hp]

theorem SameGroup.mem_requires_iff (hg : SameGroup G H g h) (hp : SameParcel G H p q) :
    g ∈ G.requires p ↔ h ∈ H.requires q := by
  rw [mem_requires, mem_requires, hg.needs hp]

/-! ## Cycles -/

/-- The nodes have the same declaration. -/
def SameNode (G H : Graph) : Node → Node → Prop
  | .group g, .group h => SameGroup G H g h
  | .parcel p, .parcel q => SameParcel G H p q
  | _, _ => False

theorem exists_sameNode (hr : G.invoice.IsReordering H.invoice) {n : Node} (hn : n ∈ G.nodes) :
    ∃ m, SameNode G H n m := by
  cases n with
  | group g =>
    obtain ⟨h, hg⟩ := exists_sameGroup hr (group_mem_nodes.1 hn)
    exact ⟨.group h, hg⟩
  | parcel p =>
    obtain ⟨q, hp⟩ := exists_sameParcel hr (parcel_mem_nodes.1 hn)
    exact ⟨.parcel q, hp⟩

theorem SameNode.leads {n n' m m' : Node} (hn : SameNode G H n n') (hm : SameNode G H m m')
    (h : G.Leads n m) : H.Leads n' m' := by
  match n, n', hn with
  | .group g, .group g', hg =>
    obtain ⟨p, rfl, hholds⟩ := leads_group.1 h
    match m', hm with
    | .parcel p', hp => exact leads_group.2 ⟨p', rfl, (hg.holds hp).symm.trans hholds⟩
  | .parcel p, .parcel p', hp =>
    obtain ⟨g, rfl, hneeds⟩ := leads_parcel.1 h
    match m', hm with
    | .group g', hg => exact leads_parcel.2 ⟨g', rfl, (hg.needs hp).symm.trans hneeds⟩

/-- Reordering an invoice makes no cycle: a walk in one graph is a walk between the same
declarations in the other. -/
theorem IsAcyclic.of_isReordering (hr : G.invoice.IsReordering H.invoice) (hG : G.IsAcyclic) :
    H.IsAcyclic := by
  have htotal : ∀ n, ∃ m, n ∈ H.nodes → SameNode H G n m := by
    intro n
    by_cases hn : n ∈ H.nodes
    · obtain ⟨m, hm⟩ := exists_sameNode hr.symm hn
      exact ⟨m, fun _ => hm⟩
    · exact ⟨n, fun hn' => absurd hn' hn⟩
  choose back hback using htotal
  intro n hwalk
  refine hG (back n) (Relation.TransGen.lift back (fun a b hstep => ?_) _ _ hwalk)
  obtain ⟨ha, hb⟩ := hstep.mem_nodes
  exact (hback a ha).leads (hback b hb) hstep

end Graph

end Bindle
