import Bindle.Proofs.Graph.Tables

/-!
# Names of groups and parcels

Whoever asks a graph for a group or a parcel gives its name. In a well-formed invoice no two groups
and no two parcels share one, and no group is shown like the global one, so a name stands for at
most one node of a kind, and looking it up and reading it off are inverse to each other.

The invoice answers questions about groups by itself, by going through its parcels. Its answers
are those of the graph, parcel by parcel and in the same order; and the parcels that it counts as
excluded are those that no group of the graph contains.

* `parcelId?_parcelName`, `exists_groupId?_iff`: what looking up a name finds.
* `nodup_groupName`: no two groups are shown alike.
* `map_parcel?_members`: the members of a group, as declared.
* `groupMembers_eq`, `globalMembers_eq`, `groupsOf_eq_nil_iff`: the invoice's answers are the
  graph's.
* `IsIndexed`, `isIndexed_of_isValid`: all of it together.
-/

namespace Bindle.Graph

variable {G : Graph} {g : GroupId} {p : ParcelId} {parcel : Parcel} {name : String}

/-! ## Looking up names -/

theorem parcelId?_parcelName (hG : G.invoice.WellFormed) (hp : p ∈ G.parcelIds) :
    G.parcelId? (G.parcelName p) = some p := by
  obtain ⟨parcel, hparcel⟩ := mem_parcelIds_iff.1 hp
  exact (parcelId?_eq_some_iff hG).2 ⟨parcel, hparcel, (parcelName_of_parcel? hparcel).symm⟩

theorem parcelId?_eq_none (hG : G.invoice.WellFormed)
    (hnone : ∀ p ∈ G.parcelIds, G.parcelName p ≠ name) : G.parcelId? name = none := by
  rw [Option.eq_none_iff_forall_ne_some]
  intro p hp
  obtain ⟨parcel, hparcel, rfl⟩ := (parcelId?_eq_some_iff hG).1 hp
  exact hnone p (mem_parcelIds_iff.2 ⟨parcel, hparcel⟩) (parcelName_of_parcel? hparcel)

/-- A name is found in the graph when a group of that name is declared. -/
theorem exists_groupId?_iff : (∃ g, G.groupId? name = some g) ↔ G.invoice.hasGroup name = true := by
  rw [← Option.isSome_iff_exists, groupId?, Option.isSome_map, Invoice.hasGroup, Invoice.group?,
    List.findIdx?_isSome, List.find?_isSome, List.any_eq_true]

theorem groupRef_of_groupId? (hG : G.invoice.WellFormed) (hg : G.groupId? name = some g) :
    ∃ n : GroupName, G.groupRef g = .named n ∧ n.text = name := by
  obtain ⟨group, hgroup, rfl⟩ := (groupId?_eq_some_iff hG).1 hg
  exact ⟨group.name, groupRef_of_group? hgroup, rfl⟩

theorem groupId?_of_groupRef (hG : G.invoice.WellFormed) {n : GroupName}
    (hg : G.groupRef g = .named n) : G.groupId? n.text = some g := by
  obtain ⟨group, hgroup, rfl⟩ := groupRef_eq_named_iff.1 hg
  exact (groupId?_eq_some_iff hG).2 ⟨group, hgroup, rfl⟩

/-- No two groups are shown alike, the global one among them. -/
theorem nodup_groupName (hG : G.invoice.WellFormed) : (G.groupIds.map G.groupName).Nodup :=
  nodup_groupIds.map_on fun _ hg _ hh hname => groupName_inj hG hg hh hname

/-! ## The invoice's own answers -/

/-- The members of a group are the parcels that it contains as declared, in order. -/
theorem map_parcel?_members :
    (G.members g).map G.parcel? = (G.invoice.parcels.filter (G.contains g)).map some := by
  have hdeclared : ∀ d ∈ G.declaredParcels.filter fun d => G.contains g d.2,
      G.parcel? d.1 = some d.2 :=
    fun d hd => mem_declaredParcels.1 (List.mem_filter.1 hd).1
  calc (G.members g).map G.parcel?
      = (G.declaredParcels.filter fun d => G.contains g d.2).map (fun d => some d.2) := by
        rw [members, List.map_map]
        exact List.map_congr_left hdeclared
    _ = ((G.declaredParcels.map (·.2)).filter (G.contains g)).map some := by
        rw [List.filter_map, List.map_map]
        rfl
    _ = (G.invoice.parcels.filter (G.contains g)).map some := by
        rw [map_snd_declaredParcels]

theorem contains_of_groupRef {n : GroupName} (hg : G.groupRef g = .named n) :
    G.contains g parcel = parcel.isMemberOf n.text := by
  obtain ⟨group, hgroup, rfl⟩ := groupRef_eq_named_iff.1 hg
  obtain ⟨index⟩ := g
  cases index with
  | zero => cases hgroup
  | succ i =>
    show (G.group? ⟨i + 1⟩).any (fun group => parcel.isMemberOf group.name.text) = _
    rw [hgroup, Option.any_some]

/-- The parcels that the invoice lists for a name are the members of the group of that name. -/
theorem groupMembers_eq (hG : G.invoice.WellFormed) (name : String) :
    (G.invoice.groupMembers name).map some =
      ((G.groupId? name).elim [] G.members).map G.parcel? := by
  unfold Invoice.groupMembers
  cases hg : G.groupId? name with
  | none =>
    have hnone : ¬G.invoice.hasGroup name = true := by
      rw [← exists_groupId?_iff, hg]
      simp
    rw [if_neg hnone]
    rfl
  | some g =>
    obtain ⟨n, hn, rfl⟩ := groupRef_of_groupId? hG hg
    rw [if_pos (exists_groupId?_iff.1 ⟨g, hg⟩), Option.elim_some, map_parcel?_members]
    exact congrArg _ (List.filter_congr fun parcel _ => (contains_of_groupRef hn).symm)

theorem globalMembers_eq :
    G.invoice.globalMembers.map some = (G.members .global).map G.parcel? := by
  rw [map_parcel?_members]
  rfl

/-- A parcel is in no group exactly when it is excluded: a group that it lists is declared, and
without a list it is in the global group. -/
theorem groupsOf_eq_nil_iff (hG : G.invoice.WellFormed) (hp : G.parcel? p = some parcel) :
    G.groupsOf p = [] ↔ parcel.isExcluded = true := by
  have hbelongs : G.groupsOf p = [] ↔ ∀ ref, ¬parcel.BelongsTo ref := by
    rw [List.eq_nil_iff_forall_not_mem]
    constructor
    · intro hnone ref href
      obtain ⟨g, ⟨hg, rfl⟩, -⟩ := existsUnique_groupRef hG (mem_parcels_of_parcel? hp) (.inl href)
      exact hnone g (mem_groupsOf.2 ((holds_iff_belongsTo hg hp).2 href))
    · intro hnone g hg
      have hholds := mem_groupsOf.1 hg
      exact hnone _ ((holds_iff_belongsTo (mem_groupIds_of_holds hholds) hp).1 hholds)
  rw [hbelongs, Parcel.isExcluded]
  cases hlist : parcel.memberOf with
  | none =>
    have hglobal : parcel.BelongsTo .global := hlist
    simp only [Option.any_none, Bool.false_eq_true, iff_false, not_forall, not_not]
    exact ⟨.global, hglobal⟩
  | some names =>
    rw [Option.any_some, List.isEmpty_iff]
    constructor
    · intro hnone
      rw [List.eq_nil_iff_forall_not_mem]
      exact fun name hname => hnone (.named name) ⟨names, hlist, hname⟩
    · rintro rfl ref href
      cases ref with
      | global =>
        rw [Parcel.BelongsTo, hlist] at href
        cases href
      | named name =>
        obtain ⟨names, hnames, hmem⟩ := href
        rw [hlist] at hnames
        cases hnames
        cases hmem

/-! ## Names and answers -/

/-- Names stand for nodes, and the invoice and its graph say the same of groups. -/
structure IsIndexed (G : Graph) : Prop where
  /-- A name finds a group exactly when the invoice has one of that name. -/
  group : ∀ name, (∃ g, G.groupId? name = some g) ↔ G.invoice.hasGroup name = true
  /-- What a name finds is shown by that name, and a group is found by its name. -/
  groupName : ∀ name g, G.groupId? name = some g ↔
    ∃ n : GroupName, G.groupRef g = .named n ∧ n.text = name
  /-- A parcel is found by its name. -/
  parcel : ∀ p ∈ G.parcelIds, G.parcelId? (G.parcelName p) = some p
  /-- No parcel is found by another name. -/
  noParcel : ∀ name, (∀ p ∈ G.parcelIds, G.parcelName p ≠ name) → G.parcelId? name = none
  /-- No two groups are shown alike, and the global one is shown as no name of a group is. -/
  shown : (G.groupIds.map G.groupName).Nodup ∧ G.groupName .global = globalDisplay
  /-- Asked by name, the invoice lists the members in the graph, and none for other names. -/
  groupMembers : ∀ name, (G.invoice.groupMembers name).map some =
    ((G.groupId? name).elim [] G.members).map G.parcel?
  globalMembers : G.invoice.globalMembers.map some = (G.members .global).map G.parcel?
  /-- A parcel is in no group exactly when it is excluded. -/
  excluded : ∀ p parcel, G.parcel? p = some parcel →
    (G.groupsOf p = [] ↔ parcel.isExcluded = true)

theorem isIndexed (hG : G.invoice.WellFormed) : G.IsIndexed where
  group _ := exists_groupId?_iff
  groupName name g := by
    constructor
    · exact groupRef_of_groupId? hG
    · rintro ⟨n, hn, rfl⟩
      exact groupId?_of_groupRef hG hn
  parcel _ hp := parcelId?_parcelName hG hp
  noParcel _ hnone := parcelId?_eq_none hG hnone
  shown := ⟨nodup_groupName hG, rfl⟩
  groupMembers name := groupMembers_eq hG name
  globalMembers := globalMembers_eq
  excluded _ _ hp := groupsOf_eq_nil_iff hG hp

/-- **Names identify nodes, and the invoice agrees with its graph.** In a valid invoice looking up
a name and reading it off are inverse to each other, for groups and for parcels; and what the
invoice says of the members of groups, of global members and of excluded parcels is what the graph
says. The graph is the one that is built: its indices find the same, and its members are the
same. -/
theorem isIndexed_of_isValid {i : Invoice} (hi : i.IsValid) :
    IsIndexed { invoice := i } ∧
      ∃ t, Tables.build i = .ok t ∧ t.invoice = i ∧ t.AgreesWithView := by
  obtain ⟨t, hbuild, hinvoice, -, hagrees⟩ := Tables.exists_build hi.wellFormed
  exact ⟨isIndexed hi.wellFormed, t, hbuild, hinvoice, hagrees⟩

end Bindle.Graph

namespace Bindle.Worked

/-- In the worked scenario two parcels are utilities, and the hidden one is in no group. -/
theorem isIndexed_graph :
    invoice.IsValid ∧ graph.IsIndexed ∧
      (∃ t, Graph.Tables.build invoice = .ok t ∧ t.invoice = invoice ∧ t.AgreesWithView) ∧
      (invoice.groupMembers "utility").map (·.name) = ["first", "third"] ∧
      graph.groupId? "utility" = some ⟨3⟩ ∧ graph.groupId? "<global>" = none ∧
      graph.parcelId? "hidden" = some ⟨5⟩ ∧ graph.groupsOf ⟨5⟩ = [] := by
  obtain ⟨hindexed, htables⟩ := Graph.isIndexed_of_isValid isValid
  refine ⟨isValid, hindexed, htables, ?_, ?_, ?_, ?_, ?_⟩ <;> decide +kernel

end Bindle.Worked
