import Bindle.Graph.Lemmas
import Bindle.Proofs.Invoice.Validity

/-!
# The graph and the declarations

What the graph says of positions, said of the declarations at these positions. In a well-formed
invoice a declaration stands at one position only, because names tell declarations apart; so a
name can be looked up and the position found is the right one.

* `holds_iff`, `needs_iff`: the two relations, as declared.
* `group?_inj`, `parcel?_inj`: different positions have different names.
* `groupId?_eq_some_iff`, `parcelId?_eq_some_iff`: what looking up a name finds.
* `nodup_members`, `pairwise_members`: a group has each member once, in order of declaration.
-/

namespace Bindle

/-- No name is shown like another, and none like the global group. -/
theorem GroupRef.display_inj {a b : GroupRef} : a.display = b.display ↔ a = b := by
  constructor
  · intro h
    cases a with
    | global =>
      cases b with
      | global => rfl
      | named name => exact absurd h.symm name.ne_global
    | named name =>
      cases b with
      | global => exact absurd h name.ne_global
      | named other => rw [GroupName.text_inj.1 h]
  · rintro rfl
    rfl

/-- The parcel lists the group as its own. -/
def Parcel.Lists (p : Parcel) (name : GroupName) : Prop :=
  ∃ names, p.memberOf = some names ∧ name ∈ names

theorem Parcel.isMemberOf_iff {p : Parcel} {name : GroupName} :
    p.isMemberOf name.text = true ↔ p.Lists name := by
  unfold Parcel.isMemberOf Parcel.Lists
  rw [Option.any_eq_true]
  constructor
  · rintro ⟨names, hnames, hany⟩
    obtain ⟨n, hn, heq⟩ := List.any_eq_true.1 hany
    rw [beq_iff_eq, GroupName.text_inj] at heq
    exact ⟨names, hnames, heq ▸ hn⟩
  · rintro ⟨names, hnames, hn⟩
    exact ⟨names, hnames, List.any_eq_true.2 ⟨name, hn, beq_self_eq_true _⟩⟩

theorem Invoice.WellFormed.groupTexts_nodup {i : Invoice} (hi : i.WellFormed) :
    (i.groups.map (·.name.text)).Nodup := by
  have hnames := hi.groupNames_nodup.map GroupName.text_injective
  rwa [Invoice.groupNames, List.map_map] at hnames

namespace Graph

variable {G : Graph} {g h : GroupId} {p q : ParcelId}

/-! ## Positions -/

theorem global_mem_groupIds : GroupId.global ∈ G.groupIds := by
  rw [mem_groupIds]
  exact Nat.succ_pos _

theorem nodup_groupIds : G.groupIds.Nodup := by
  refine List.Nodup.map ?_ List.nodup_range
  intro i j hij
  simpa using hij

theorem nodup_parcelIds : G.parcelIds.Nodup := by
  refine List.Nodup.map ?_ List.nodup_range
  intro i j hij
  simpa using hij

theorem length_parcelIds : G.parcelIds.length = G.parcelCount := by
  simp [parcelIds]

theorem group?_succ {i : Nat} : G.group? ⟨i + 1⟩ = G.invoice.groups[i]? := rfl

@[simp] theorem group?_global : G.group? .global = none := rfl

/-- A group is the global one or is declared. -/
theorem eq_global_or_declared (hg : g ∈ G.groupIds) :
    g = .global ∨ ∃ group, G.group? g = some group := by
  obtain ⟨index⟩ := g
  cases index with
  | zero => exact .inl rfl
  | succ i =>
    rw [mem_groupIds, groupCount] at hg
    have hi : i < G.invoice.groups.length := by simpa using hg
    exact .inr ⟨_, (List.getElem?_eq_getElem hi : G.group? ⟨i + 1⟩ = _)⟩

theorem mem_groups_of_group? {group : Group} (hg : G.group? g = some group) :
    group ∈ G.invoice.groups := by
  obtain ⟨index⟩ := g
  cases index with
  | zero => cases hg
  | succ i => exact List.mem_of_getElem? hg

theorem exists_group?_of_mem {group : Group} (hg : group ∈ G.invoice.groups) :
    ∃ g, G.group? g = some group := by
  obtain ⟨i, hi⟩ := List.mem_iff_getElem?.1 hg
  exact ⟨⟨i + 1⟩, hi⟩

theorem mem_parcels_of_parcel? {parcel : Parcel} (hp : G.parcel? p = some parcel) :
    parcel ∈ G.invoice.parcels :=
  List.mem_of_getElem? hp

theorem exists_parcel?_of_mem {parcel : Parcel} (hp : parcel ∈ G.invoice.parcels) :
    ∃ p, G.parcel? p = some parcel := by
  obtain ⟨i, hi⟩ := List.mem_iff_getElem?.1 hp
  exact ⟨⟨i⟩, hi⟩

theorem mem_parcelIds_iff : p ∈ G.parcelIds ↔ ∃ parcel, G.parcel? p = some parcel := by
  rw [mem_parcelIds]
  constructor
  · intro hp
    exact ⟨_, List.getElem?_eq_getElem hp⟩
  · rintro ⟨parcel, hp⟩
    exact (List.getElem?_eq_some_iff.1 hp).1

theorem groupRef_of_group? {group : Group} (hg : G.group? g = some group) :
    G.groupRef g = .named group.name := by
  simp [groupRef, hg]

theorem groupRef_eq_named_iff {name : GroupName} :
    G.groupRef g = .named name ↔ ∃ group, G.group? g = some group ∧ group.name = name := by
  unfold groupRef
  cases G.group? g <;> simp

theorem groupName_of_groupRef {name : GroupName} (hg : G.groupRef g = .named name) :
    G.groupName g = name.text := by
  rw [groupName, hg]
  rfl

theorem policy_of_group? {group : Group} (hg : G.group? g = some group) :
    G.policy g = group.policy := by
  simp [policy, hg]

@[simp] theorem policy_global : G.policy .global = .allOf := rfl

theorem isRootRequired_of_group? {group : Group} (hg : G.group? g = some group) :
    G.isRootRequired g = group.required := by
  obtain ⟨index⟩ := g
  cases index with
  | zero => cases hg
  | succ i =>
    show (G.group? ⟨i + 1⟩).any (·.required) = group.required
    rw [hg, Option.any_some]

theorem isGlobal_iff : g.isGlobal = true ↔ g = .global := by
  obtain ⟨index⟩ := g
  simp [GroupId.isGlobal, GroupId.global]

/-- A group that does not take all of its members is declared. -/
theorem exists_group?_of_ne_allOf (hpolicy : G.policy g ≠ .allOf) :
    ∃ group, G.group? g = some group ∧ group.policy = G.policy g := by
  cases hg : G.group? g with
  | none => exact absurd (by simp [policy, hg]) hpolicy
  | some group => exact ⟨group, rfl, (policy_of_group? hg).symm⟩

/-- A group that accepts one parcel is declared to. -/
theorem exists_group?_of_oneOf (hpolicy : G.policy g = .oneOf) :
    ∃ group, G.group? g = some group ∧ group.policy = .oneOf := by
  have hne : G.policy g ≠ .allOf := by simp [hpolicy]
  obtain ⟨group, hgroup, heq⟩ := exists_group?_of_ne_allOf hne
  exact ⟨group, hgroup, heq.trans hpolicy⟩

theorem parcelName_of_parcel? {parcel : Parcel} (hp : G.parcel? p = some parcel) :
    G.parcelName p = parcel.name := by
  simp [parcelName, hp]

/-! ## Relations as declared -/

/-- A group holds the parcels that list it, and the global group those without a list. -/
theorem holds_iff :
    G.holds g p = true ↔ ∃ parcel, G.parcel? p = some parcel ∧
      (g = .global ∧ parcel.memberOf = none ∨
        ∃ group, G.group? g = some group ∧ parcel.Lists group.name) := by
  unfold holds
  rw [Option.any_eq_true]
  refine exists_congr fun parcel => and_congr_right fun _ => ?_
  obtain ⟨index⟩ := g
  cases index with
  | zero =>
    show parcel.isGlobalMember = true ↔ _
    have hglobal : G.group? ⟨0⟩ = none := rfl
    simp [Parcel.isGlobalMember, GroupId.global, hglobal]
  | succ i =>
    show (G.group? ⟨i + 1⟩).any (fun group => parcel.isMemberOf group.name.text) = true ↔ _
    rw [Option.any_eq_true]
    simp [GroupId.global, Parcel.isMemberOf_iff]

/-- A parcel needs the declared groups among those that it requires. -/
theorem needs_iff :
    G.needs p g = true ↔ ∃ parcel, G.parcel? p = some parcel ∧
      ∃ group, G.group? g = some group ∧ .named group.name ∈ parcel.requires := by
  unfold needs
  rw [Option.any_eq_true]
  refine exists_congr fun parcel => and_congr_right fun _ => ?_
  unfold isRequired
  simp [Option.any_eq_true]

/-- The members of a declared group are the parcels that list it. -/
theorem mem_members_of_group? {group : Group} (hg : G.group? g = some group) :
    p ∈ G.members g ↔ ∃ parcel, G.parcel? p = some parcel ∧ parcel.Lists group.name := by
  have hne : g ≠ .global := by
    rintro rfl
    cases hg
  rw [mem_members, holds_iff]
  refine exists_congr fun parcel => and_congr_right fun _ => ?_
  simp [hg, hne]

/-- The members of the global group are the parcels without a list of groups. -/
theorem mem_members_global :
    p ∈ G.members .global ↔ ∃ parcel, G.parcel? p = some parcel ∧ parcel.memberOf = none := by
  rw [mem_members, holds_iff]
  refine exists_congr fun parcel => and_congr_right fun _ => ?_
  simp

/-- A member of a group did not take itself out of every group. -/
theorem not_isExcluded_of_mem_members {parcel : Parcel} (hp : p ∈ G.members g)
    (hparcel : G.parcel? p = some parcel) : parcel.isExcluded = false := by
  obtain ⟨parcel', hparcel', hmember⟩ := holds_iff.1 (mem_members.1 hp)
  rw [hparcel] at hparcel'
  obtain rfl := Option.some.inj hparcel'
  rcases hmember with ⟨-, hnone⟩ | ⟨group, -, names, hnames, hmem⟩
  · simp [Parcel.isExcluded, hnone]
  · have hne : names ≠ [] := List.ne_nil_of_mem hmem
    simp [Parcel.isExcluded, hnames, hne]

theorem mem_groupIds_of_holds (hg : G.holds g p = true) : g ∈ G.groupIds := by
  obtain ⟨parcel, -, hc⟩ := (Option.any_eq_true _ _).1 hg
  exact mem_groupIds_of_contains hc

theorem mem_parcelIds_of_holds (hg : G.holds g p = true) : p ∈ G.parcelIds := by
  obtain ⟨parcel, hp, -⟩ := holds_iff.1 hg
  exact mem_parcelIds_iff.2 ⟨parcel, hp⟩

theorem mem_groupIds_of_needs (hp : G.needs p g = true) : g ∈ G.groupIds := by
  obtain ⟨-, -, group, hg, -⟩ := needs_iff.1 hp
  exact mem_groupIds_of_group? hg

theorem mem_parcelIds_of_needs (hp : G.needs p g = true) : p ∈ G.parcelIds := by
  obtain ⟨parcel, hparcel, -⟩ := needs_iff.1 hp
  exact mem_parcelIds_iff.2 ⟨parcel, hparcel⟩

theorem map_fst_declaredParcels : G.declaredParcels.map (·.1) = G.parcelIds := by
  refine List.map_fst_zip (Nat.le_of_eq ?_)
  rw [length_parcelIds]
  rfl

theorem map_snd_declaredParcels : G.declaredParcels.map (·.2) = G.invoice.parcels := by
  refine List.map_snd_zip (Nat.le_of_eq ?_)
  rw [length_parcelIds]
  rfl

/-- Parcels whose declarations have a property, picked from the declarations or by position. -/
theorem map_fst_filter_declaredParcels (f : Parcel → Bool) :
    (G.declaredParcels.filter fun d => f d.2).map (·.1) =
      G.parcelIds.filter fun p => (G.parcel? p).any f := by
  have hdeclared : ∀ d ∈ G.declaredParcels, f d.2 = (G.parcel? d.1).any f := by
    intro d hd
    rw [mem_declaredParcels.1 hd, Option.any_some]
  rw [List.filter_congr hdeclared, ← map_fst_declaredParcels, List.filter_map]
  rfl

theorem members_eq_filter : G.members g = G.parcelIds.filter (G.holds g) :=
  map_fst_filter_declaredParcels _

theorem requiredBy_eq_filter : G.requiredBy g = G.parcelIds.filter (G.needs · g) :=
  map_fst_filter_declaredParcels _

theorem members_sublist : (G.members g).Sublist G.parcelIds := by
  rw [← map_fst_declaredParcels]
  exact List.Sublist.map _ List.filter_sublist

theorem nodup_members : (G.members g).Nodup :=
  nodup_parcelIds.sublist members_sublist

theorem pairwise_parcelIds : G.parcelIds.Pairwise (·.index < ·.index) := by
  rw [parcelIds, List.pairwise_map]
  exact List.pairwise_lt_range

/-- Members stand in order of declaration. -/
theorem pairwise_members : (G.members g).Pairwise (·.index < ·.index) :=
  pairwise_parcelIds.sublist members_sublist

/-! ## Names -/

theorem group?_inj (hG : G.invoice.WellFormed) {a b : Group} (hg : G.group? g = some a)
    (hh : G.group? h = some b) (hname : a.name = b.name) : g = h := by
  obtain ⟨i⟩ := g
  obtain ⟨j⟩ := h
  cases i with
  | zero => cases hg
  | succ i =>
    cases j with
    | zero => cases hh
    | succ j =>
      have hi : (G.invoice.groups.map (·.name))[i]? = some a.name := by
        rw [List.getElem?_map, ← group?_succ, hg, Option.map_some]
      have hj : (G.invoice.groups.map (·.name))[j]? = some a.name := by
        rw [List.getElem?_map, ← group?_succ, hh, Option.map_some, hname]
      have hlt : i < (G.invoice.groups.map (·.name)).length := (List.getElem?_eq_some_iff.1 hi).1
      rw [(List.getElem?_inj hlt hG.groupNames_nodup).1 (hi.trans hj.symm)]

/-- Groups that are shown alike are the same. -/
theorem groupRef_inj (hG : G.invoice.WellFormed) (hg : g ∈ G.groupIds) (hh : h ∈ G.groupIds)
    (hsame : G.groupRef g = G.groupRef h) : g = h := by
  rcases eq_global_or_declared hh with rfl | ⟨group, hgroup⟩
  · rcases eq_global_or_declared hg with rfl | ⟨other, hother⟩
    · rfl
    · rw [groupRef_of_group? hother] at hsame
      cases hsame
  · rw [groupRef_of_group? hgroup] at hsame
    obtain ⟨other, hother, hname⟩ := groupRef_eq_named_iff.1 hsame
    exact group?_inj hG hother hgroup hname

theorem groupName_inj (hG : G.invoice.WellFormed) (hg : g ∈ G.groupIds) (hh : h ∈ G.groupIds)
    (hsame : G.groupName g = G.groupName h) : g = h :=
  groupRef_inj hG hg hh (GroupRef.display_inj.1 hsame)

theorem eq_of_groupRef_named (hG : G.invoice.WellFormed) {name : GroupName}
    (hg : G.groupRef g = .named name) (hh : G.groupRef h = .named name) : g = h := by
  obtain ⟨a, ha, rfl⟩ := groupRef_eq_named_iff.1 hg
  obtain ⟨b, hb, hname⟩ := groupRef_eq_named_iff.1 hh
  exact group?_inj hG ha hb hname.symm

theorem parcel?_inj (hG : G.invoice.WellFormed) {a b : Parcel} (hp : G.parcel? p = some a)
    (hq : G.parcel? q = some b) (hname : a.name = b.name) : p = q := by
  obtain ⟨i⟩ := p
  obtain ⟨j⟩ := q
  have hi : (G.invoice.parcels.map (·.name))[i]? = some a.name := by
    rw [List.getElem?_map, show G.invoice.parcels[i]? = some a from hp, Option.map_some]
  have hj : (G.invoice.parcels.map (·.name))[j]? = some a.name := by
    rw [List.getElem?_map, show G.invoice.parcels[j]? = some b from hq, Option.map_some, hname]
  have hlt : i < (G.invoice.parcels.map (·.name)).length := (List.getElem?_eq_some_iff.1 hi).1
  rw [(List.getElem?_inj hlt hG.parcelNames_nodup).1 (hi.trans hj.symm)]

/-- Where keys tell the entries of a list apart, looking up a key finds the entry of that key. -/
theorem findIdx?_eq_some_iff_of_nodup {α : Type} {l : List α} {key : α → String}
    (hl : (l.map key).Nodup) {name : String} {i : Nat} :
    l.findIdx? (key · == name) = some i ↔ ∃ a, l[i]? = some a ∧ key a = name := by
  rw [List.findIdx?_eq_some_iff_getElem]
  constructor
  · rintro ⟨hlt, hname, -⟩
    exact ⟨_, List.getElem?_eq_getElem hlt, beq_iff_eq.1 hname⟩
  · rintro ⟨a, ha, rfl⟩
    obtain ⟨hlt, rfl⟩ := List.getElem?_eq_some_iff.1 ha
    refine ⟨hlt, beq_self_eq_true _, fun j hj hsame => ?_⟩
    have hlt' : j < (l.map key).length := by
      rw [List.length_map]
      exact hj.trans hlt
    have heq : (l.map key)[j]? = (l.map key)[i]? := by
      rw [List.getElem?_map, List.getElem?_map, ha, List.getElem?_eq_getElem (hj.trans hlt),
        Option.map_some, Option.map_some, beq_iff_eq.1 hsame]
    exact Nat.ne_of_lt hj ((List.getElem?_inj hlt' hl).1 heq)

/-- Looking up a name finds the declared group of that name. -/
theorem groupId?_eq_some_iff (hG : G.invoice.WellFormed) {name : String} :
    G.groupId? name = some g ↔ ∃ group, G.group? g = some group ∧ group.name.text = name := by
  rw [groupId?, Option.map_eq_some_iff]
  simp only [findIdx?_eq_some_iff_of_nodup hG.groupTexts_nodup]
  constructor
  · rintro ⟨i, ⟨group, hgroup, hname⟩, rfl⟩
    exact ⟨group, hgroup, hname⟩
  · rintro ⟨group, hgroup, hname⟩
    obtain ⟨index⟩ := g
    cases index with
    | zero => cases hgroup
    | succ i => exact ⟨i, ⟨group, hgroup, hname⟩, rfl⟩

/-- Looking up a name finds the parcel of that name. -/
theorem parcelId?_eq_some_iff (hG : G.invoice.WellFormed) {name : String} :
    G.parcelId? name = some p ↔ ∃ parcel, G.parcel? p = some parcel ∧ parcel.name = name := by
  obtain ⟨i⟩ := p
  rw [parcelId?, Option.map_eq_some_iff]
  simp only [findIdx?_eq_some_iff_of_nodup hG.parcelNames_nodup, ParcelId.mk.injEq,
    exists_eq_right]
  rfl

end Graph

end Bindle
