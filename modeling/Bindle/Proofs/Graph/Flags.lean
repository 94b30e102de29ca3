import Bindle.Graph.Cycle
import Bindle.Proofs.Graph.Declarations

/-!
# Groups declared required

Whether a group is declared required decides where a run starts, and nothing else: membership,
requirements, policies and names are declared beside it. So two graphs whose declarations are the
same but for this flag are the same to look at, and have the same cycle or none.

* `Invoice.requiring`: the invoice with one more group declared required; `IsValid.requiring` says
  that it is as valid as before.
* `Group.shape`: what else a group declares; `Graph.groupIds_congr`, `groupRef_congr` and the others
  say what is the same of groups in graphs that agree in it.
* `Graph.isRootRequired_requiring_iff`: which groups are required whatever is selected.
* `Graph.IsAlike`: the declarations are the same, apart from the flags of groups. What is read off
  a graph is then the same, function by function.
* `IsAlike.cycleNames`: so is the first cycle.
-/

namespace Bindle

/-- What a group declares apart from whether it is required. -/
def Group.shape (group : Group) : GroupName × GroupPolicy := (group.name, group.policy)

/-- The group, declared required if it has that name. -/
def Group.requiring (group : Group) (name : GroupName) : Group :=
  if group.name = name then { group with required := true } else group

/-- The invoice with the group of that name declared required. -/
def Invoice.requiring (i : Invoice) (name : GroupName) : Invoice :=
  { i with groups := i.groups.map (·.requiring name) }

variable {i : Invoice} {name : GroupName}

theorem Group.shape_requiring (group : Group) : (group.requiring name).shape = group.shape := by
  unfold requiring
  split <;> rfl

/-! ## Validity -/

theorem Invoice.map_shape_requiring :
    (i.requiring name).groups.map Group.shape = i.groups.map Group.shape := by
  rw [requiring, List.map_map]
  exact List.map_congr_left fun group _ => group.shape_requiring

theorem Invoice.groupNames_requiring : (i.requiring name).groupNames = i.groupNames := by
  have hshapes : (i.requiring name).groups.map Group.shape = _ := map_shape_requiring
  have hnames := congrArg (List.map Prod.fst) hshapes
  rw [List.map_map, List.map_map] at hnames
  exact hnames

theorem Invoice.WellFormed.requiring (h : i.WellFormed) : (i.requiring name).WellFormed where
  groupNames_nodup := by
    rw [Invoice.groupNames_requiring]
    exact h.groupNames_nodup
  parcelNames_nodup := h.parcelNames_nodup
  namesDeclared := by
    rw [Invoice.groupNames_requiring]
    exact h.namesDeclared

theorem GroupDraft.Describes.exists_requiring {draft : GroupDraft} {group : Group}
    (h : draft.Describes group) :
    ∃ draft' : GroupDraft, draft'.Describes (group.requiring name) := by
  unfold Group.requiring
  split
  · exact ⟨{ draft with required := some true }, h.name, h.policy, rfl⟩
  · exact ⟨draft, h⟩

theorem exists_describes_requiring {drafts : List GroupDraft} {groups : List Group}
    (h : List.Forall₂ GroupDraft.Describes drafts groups) :
    ∃ drafts', List.Forall₂ GroupDraft.Describes drafts' (groups.map (·.requiring name)) := by
  induction h with
  | nil => exact ⟨[], .nil⟩
  | cons hdescribes _ ih =>
    obtain ⟨draft', hdraft'⟩ : ∃ draft' : GroupDraft, draft'.Describes (Group.requiring _ name) :=
      hdescribes.exists_requiring
    obtain ⟨drafts', hdrafts'⟩ := ih
    exact ⟨draft' :: drafts', .cons hdraft' hdrafts'⟩

/-- A valid invoice is valid with one more group declared required. -/
theorem Invoice.IsValid.requiring (h : i.IsValid) : (i.requiring name).IsValid := by
  obtain ⟨draft, hdraft⟩ := h
  obtain ⟨hcomplete, hdescribes, hwf⟩ := ofDraft_eq_ok_iff.1 hdraft
  obtain ⟨groups, hgroups⟩ : ∃ drafts, List.Forall₂ GroupDraft.Describes drafts
      (i.requiring name).groups := exists_describes_requiring hdescribes.groups
  refine ⟨{ draft with groups := some groups }, ofDraft_eq_ok_iff.2 ⟨?_, ?_, hwf.requiring⟩⟩
  · exact ⟨hcomplete.bindleVersion, hcomplete.bindleName, hcomplete.labels⟩
  · exact ⟨hdescribes.bindleVersion, hdescribes.bindle, hdescribes.annotations, hgroups,
      hdescribes.parcels, hdescribes.yanked⟩

/-! ## Groups declared alike -/

namespace Graph

section Shapes

variable {G H : Graph}
  (hshapes : G.invoice.groups.map Group.shape = H.invoice.groups.map Group.shape)

include hshapes

theorem groupCount_congr : G.groupCount = H.groupCount := by
  have hlen := congrArg List.length hshapes
  rw [List.length_map, List.length_map] at hlen
  rw [groupCount, groupCount, hlen]

theorem groupIds_congr : G.groupIds = H.groupIds := by
  rw [groupIds, groupIds, groupCount_congr hshapes]

theorem map_shape_group? (g : GroupId) :
    (G.group? g).map Group.shape = (H.group? g).map Group.shape := by
  obtain ⟨index⟩ := g
  cases index with
  | zero => rfl
  | succ n =>
    rw [group?_succ, group?_succ, ← List.getElem?_map, ← List.getElem?_map, hshapes]

/-- A position has a declaration in both graphs or in none, and both declare one name and one
policy. -/
theorem group?_cases (g : GroupId) :
    (G.group? g = none ∧ H.group? g = none) ∨
      ∃ a b, G.group? g = some a ∧ H.group? g = some b ∧ a.name = b.name ∧
        a.policy = b.policy := by
  have hshape := map_shape_group? hshapes g
  cases ha : G.group? g with
  | none =>
    rw [ha, Option.map_none, eq_comm, Option.map_eq_none_iff] at hshape
    exact .inl ⟨rfl, hshape⟩
  | some a =>
    rw [ha, Option.map_some, eq_comm, Option.map_eq_some_iff] at hshape
    obtain ⟨b, hb, hab⟩ := hshape
    obtain ⟨hname, hpolicy⟩ := Prod.mk.inj hab
    exact .inr ⟨a, b, rfl, hb, hname.symm, hpolicy.symm⟩

theorem groupRef_congr : G.groupRef = H.groupRef := by
  funext g
  rcases group?_cases hshapes g with ⟨ha, hb⟩ | ⟨a, b, ha, hb, hname, -⟩
  · rw [groupRef, groupRef, ha, hb]
  · rw [groupRef_of_group? ha, groupRef_of_group? hb, hname]

theorem groupName_congr : G.groupName = H.groupName := by
  funext g
  rw [groupName, groupName, groupRef_congr hshapes]

theorem policy_congr : G.policy = H.policy := by
  funext g
  rcases group?_cases hshapes g with ⟨ha, hb⟩ | ⟨a, b, ha, hb, -, hpolicy⟩
  · rw [policy, policy, ha, hb]
  · rw [policy_of_group? ha, policy_of_group? hb, hpolicy]

theorem groupId?_congr : G.groupId? = H.groupId? := by
  funext name
  have hfound : ∀ groups : List Group, groups.findIdx? (·.name.text == name) =
      (groups.map Group.shape).findIdx? (·.1.text == name) := by
    intro groups
    rw [List.findIdx?_map]
    rfl
  rw [groupId?, groupId?, hfound, hfound, hshapes]

end Shapes

/-! ## One more group declared required -/

theorem group?_requiring (g : GroupId) :
    group? { invoice := i.requiring name } g =
      (group? { invoice := i } g).map (·.requiring name) := by
  obtain ⟨index⟩ := g
  cases index with
  | zero => rfl
  | succ n => exact List.getElem?_map

/-- One more group is required whatever is selected. -/
theorem isRootRequired_requiring_iff {g : GroupId} :
    isRootRequired { invoice := i.requiring name } g = true ↔
      groupRef { invoice := i } g = .named name ∨ isRootRequired { invoice := i } g = true := by
  have hgroup' : group? { invoice := i.requiring name } g = _ := group?_requiring g
  cases hgroup : group? { invoice := i } g with
  | none =>
    rw [hgroup, Option.map_none] at hgroup'
    obtain ⟨index⟩ := g
    cases index with
    | zero => simp [isRootRequired]
    | succ n => simp [isRootRequired, groupRef, hgroup, hgroup']
  | some group =>
    rw [hgroup, Option.map_some] at hgroup'
    rw [isRootRequired_of_group? hgroup, isRootRequired_of_group? hgroup',
      groupRef_of_group? hgroup, GroupRef.named.injEq, Group.requiring]
    split
    · rename_i hname
      simp [hname]
    · rename_i hname
      simp [hname]

/-! ## Graphs that look alike -/

/-- The declarations are the same, apart from whether groups are required. -/
structure IsAlike (G H : Graph) : Prop where
  name : G.invoice.name = H.invoice.name
  shapes : G.invoice.groups.map Group.shape = H.invoice.groups.map Group.shape
  parcels : G.invoice.parcels = H.invoice.parcels

theorem isAlike_requiring (i : Invoice) (name : GroupName) :
    IsAlike { invoice := i } { invoice := i.requiring name } where
  name := rfl
  shapes := Invoice.map_shape_requiring.symm
  parcels := rfl

namespace IsAlike

variable {G H : Graph} (h : G.IsAlike H)

include h

theorem groupCount : G.groupCount = H.groupCount := groupCount_congr h.shapes

theorem groupIds : G.groupIds = H.groupIds := groupIds_congr h.shapes

theorem groupRef : G.groupRef = H.groupRef := groupRef_congr h.shapes

theorem groupName : G.groupName = H.groupName := groupName_congr h.shapes

theorem policy : G.policy = H.policy := policy_congr h.shapes

theorem groupId? : G.groupId? = H.groupId? := groupId?_congr h.shapes

theorem parcelCount : G.parcelCount = H.parcelCount := by
  rw [Graph.parcelCount, Graph.parcelCount, h.parcels]

theorem parcelIds : G.parcelIds = H.parcelIds := by
  rw [Graph.parcelIds, Graph.parcelIds, h.parcelCount]

theorem parcel? : G.parcel? = H.parcel? := by
  funext p
  rw [Graph.parcel?, Graph.parcel?, h.parcels]

theorem declaredParcels : G.declaredParcels = H.declaredParcels := by
  rw [Graph.declaredParcels, Graph.declaredParcels, h.parcelIds, h.parcels]

theorem parcelName : G.parcelName = H.parcelName := by
  funext p
  rw [Graph.parcelName, Graph.parcelName, h.parcel?]

theorem parcelNames : G.parcelNames = H.parcelNames := by
  funext ps
  rw [Graph.parcelNames, Graph.parcelNames, h.parcelName]

/-! ### Relations -/

theorem contains : G.contains = H.contains := by
  funext g parcel
  obtain ⟨index⟩ := g
  cases index with
  | zero => rfl
  | succ n =>
    show (G.group? ⟨n + 1⟩).any (fun group => parcel.isMemberOf group.name.text) =
      (H.group? ⟨n + 1⟩).any fun group => parcel.isMemberOf group.name.text
    rcases group?_cases h.shapes ⟨n + 1⟩ with ⟨ha, hb⟩ | ⟨a, b, ha, hb, hname, -⟩
    · rw [ha, hb]
    · rw [ha, hb, Option.any_some, Option.any_some, hname]

theorem isRequired : G.isRequired = H.isRequired := by
  funext g parcel
  rw [Graph.isRequired, Graph.isRequired]
  rcases group?_cases h.shapes g with ⟨ha, hb⟩ | ⟨a, b, ha, hb, hname, -⟩
  · rw [ha, hb]
  · rw [ha, hb, Option.any_some, Option.any_some, hname]

theorem holds : G.holds = H.holds := by
  funext g p
  rw [Graph.holds, Graph.holds, h.parcel?, h.contains]

theorem needs : G.needs = H.needs := by
  funext p g
  rw [Graph.needs, Graph.needs, h.parcel?, h.isRequired]

theorem members : G.members = H.members := by
  funext g
  rw [Graph.members, Graph.members, h.declaredParcels, h.contains]

theorem groupsOf : G.groupsOf = H.groupsOf := by
  funext p
  rw [Graph.groupsOf, Graph.groupsOf, h.groupIds, h.holds]

theorem requires : G.requires = H.requires := by
  funext p
  rw [Graph.requires, Graph.requires, h.groupIds, h.needs]

theorem requiredBy : G.requiredBy = H.requiredBy := by
  funext g
  rw [Graph.requiredBy, Graph.requiredBy, h.declaredParcels, h.isRequired]

/-! ### Cycles -/

theorem nodes : G.nodes = H.nodes := by
  rw [Graph.nodes, Graph.nodes, h.groupIds, h.parcelIds]

theorem successors : G.successors = H.successors := by
  funext n
  cases n with
  | group g => rw [Graph.successors, Graph.successors, h.members]
  | parcel p => rw [Graph.successors, Graph.successors, h.requires]

theorem nodeName : G.nodeName = H.nodeName := by
  funext n
  cases n with
  | group g => exact congrFun h.groupName g
  | parcel p => exact congrFun h.parcelName p

theorem visit (fuel : Nat) : G.visit fuel = H.visit fuel := by
  induction fuel with
  | zero => rfl
  | succ fuel ih =>
    funext trail done node
    rw [Graph.visit, Graph.visit, h.successors, ih]

theorem cycleNames : G.cycleNames = H.cycleNames := by
  rw [Graph.cycleNames, Graph.cycleNames, findCycle, findCycle, h.nodes, h.visit, h.nodeName]

end IsAlike

end Graph

end Bindle
