import Bindle.Graph.Basic

/-!
# Members of the graph's lists

Every list that a graph gives is described by what it contains: the nodes by their position, and
the rows and columns of a relation by the relation. So the four lists of a relation say the same
thing from two sides.

Main statements: `mem_groupIds`, `mem_parcelIds`, `mem_members`, `mem_groupsOf`, `mem_requires`,
`mem_requiredBy`.
-/

namespace Bindle.Graph

/-! ## Nodes -/

theorem mem_groupIds {G : Graph} {g : GroupId} : g ∈ G.groupIds ↔ g.index < G.groupCount := by
  rw [groupIds, List.mem_map]
  constructor
  · rintro ⟨i, hi, rfl⟩
    exact List.mem_range.1 hi
  · intro h
    exact ⟨g.index, List.mem_range.2 h, rfl⟩

theorem mem_parcelIds {G : Graph} {p : ParcelId} : p ∈ G.parcelIds ↔ p.index < G.parcelCount := by
  rw [parcelIds, List.mem_map]
  constructor
  · rintro ⟨i, hi, rfl⟩
    exact List.mem_range.1 hi
  · intro h
    exact ⟨p.index, List.mem_range.2 h, rfl⟩

theorem mem_declaredParcels {G : Graph} {p : ParcelId} {parcel : Parcel} :
    (p, parcel) ∈ G.declaredParcels ↔ G.parcel? p = some parcel := by
  rw [List.mem_iff_getElem?]
  constructor
  · rintro ⟨i, hi⟩
    rw [declaredParcels, List.getElem?_zip_eq_some] at hi
    obtain ⟨hid, hparcel⟩ := hi
    rw [parcelIds, List.getElem?_map, Option.map_eq_some_iff] at hid
    obtain ⟨j, hj, rfl⟩ := hid
    obtain ⟨hlt, hval⟩ := List.getElem?_eq_some_iff.1 hj
    rw [List.getElem_range] at hval
    subst hval
    exact hparcel
  · intro h
    refine ⟨p.index, ?_⟩
    rw [declaredParcels, List.getElem?_zip_eq_some]
    have hlt : p.index < G.parcelCount := (List.getElem?_eq_some_iff.1 h).1
    refine ⟨?_, h⟩
    rw [parcelIds, List.getElem?_map, List.getElem?_range hlt]
    rfl

theorem mem_groupIds_of_group? {G : Graph} {g : GroupId} {group : Group}
    (h : G.group? g = some group) : g ∈ G.groupIds := by
  rw [mem_groupIds, groupCount]
  rw [group?] at h
  split at h
  · cases h
  · rename_i i hi
    have := (List.getElem?_eq_some_iff.1 h).1
    omega

theorem mem_groupIds_of_contains {G : Graph} {g : GroupId} {parcel : Parcel}
    (h : G.contains g parcel = true) : g ∈ G.groupIds := by
  rw [contains] at h
  split at h
  · rename_i hi
    rw [mem_groupIds, hi, groupCount]
    exact Nat.succ_pos _
  · obtain ⟨group, hg, _⟩ := (Option.any_eq_true _ _).1 h
    exact mem_groupIds_of_group? hg

/-! ## Relations -/

theorem mem_members {G : Graph} {g : GroupId} {p : ParcelId} :
    p ∈ G.members g ↔ G.holds g p = true := by
  rw [members, List.mem_map, holds, Option.any_eq_true]
  constructor
  · rintro ⟨⟨q, parcel⟩, hd, rfl⟩
    obtain ⟨hd, hc⟩ := List.mem_filter.1 hd
    exact ⟨parcel, mem_declaredParcels.1 hd, hc⟩
  · rintro ⟨parcel, hp, hc⟩
    exact ⟨(p, parcel), List.mem_filter.2 ⟨mem_declaredParcels.2 hp, hc⟩, rfl⟩

theorem mem_groupsOf {G : Graph} {g : GroupId} {p : ParcelId} :
    g ∈ G.groupsOf p ↔ G.holds g p = true := by
  rw [groupsOf, List.mem_filter]
  refine ⟨fun h => h.2, fun h => ⟨?_, h⟩⟩
  obtain ⟨parcel, _, hc⟩ := (Option.any_eq_true _ _).1 h
  exact mem_groupIds_of_contains hc

theorem mem_requires {G : Graph} {g : GroupId} {p : ParcelId} :
    g ∈ G.requires p ↔ G.needs p g = true := by
  rw [requires, List.mem_filter]
  refine ⟨fun h => h.2, fun h => ⟨?_, h⟩⟩
  obtain ⟨parcel, _, hr⟩ := (Option.any_eq_true _ _).1 h
  obtain ⟨group, hg, _⟩ := (Option.any_eq_true _ _).1 hr
  exact mem_groupIds_of_group? hg

theorem mem_requiredBy {G : Graph} {g : GroupId} {p : ParcelId} :
    p ∈ G.requiredBy g ↔ G.needs p g = true := by
  rw [requiredBy, List.mem_map, needs, Option.any_eq_true]
  constructor
  · rintro ⟨⟨q, parcel⟩, hd, rfl⟩
    obtain ⟨hd, hc⟩ := List.mem_filter.1 hd
    exact ⟨parcel, mem_declaredParcels.1 hd, hc⟩
  · rintro ⟨parcel, hp, hc⟩
    exact ⟨(p, parcel), List.mem_filter.2 ⟨mem_declaredParcels.2 hp, hc⟩, rfl⟩

end Bindle.Graph
