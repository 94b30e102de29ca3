import Bindle.Proofs.Graph.Building

/-!
# The graph as built is what is declared

In a well-formed invoice each table and the list of edges hold the declared edges, once each and in
order. A list in order is determined by its members, so all lists are those of the graph that
`Bindle.Graph.Basic` reads off the declarations, on which the resolution and the search for cycles
work.

* `Tables.mem_members` and the like: what the tables hold.
* `Tables.AgreesWithView`: the tables and what is read off the declarations are the same.
* `Tables.exists_build`: a well-formed invoice has tables, and they record what it declares.
* `Tables.IsExact`, `isExact_of_isValid`: what is built has to do with the declarations.
-/

namespace Bindle.Graph

/-! ## The tables and the view -/

namespace Tables

/-- Lists in ascending order are the same if they have the same members. -/
theorem eq_of_ascending {α : Type} (index : α → Nat) {l l' : List α}
    (hl : l.Pairwise fun a b => index a < index b) (hl' : l'.Pairwise fun a b => index a < index b)
    (h : ∀ a, a ∈ l ↔ a ∈ l') : l = l' := by
  let before : α → α → Prop := fun a b => index a < index b
  have : Std.Irrefl before := ⟨fun a => Nat.lt_irrefl (index a)⟩
  have : Std.Antisymm before := ⟨fun _ _ hlt hgt => absurd hgt (Nat.lt_asymm hlt)⟩
  exact List.Pairwise.eq_of_mem_iff (r := before) hl hl' h

/-- What was built is what is read off the declarations: the same names are found, and every list
is the same. -/
structure AgreesWithView (t : Tables) : Prop where
  groupIndex : ∀ name, t.groupIndex.get? name = t.view.groupId? name
  parcelIndex : ∀ name, t.parcelIndex.get? name = t.view.parcelId? name
  rootRequired : t.rootRequired = t.view.rootRequired
  members : ∀ g, t.members g = t.view.members g
  groupsOf : ∀ p, t.groupsOf p = t.view.groupsOf p
  requires : ∀ p, t.requires p = t.view.requires p
  requiredBy : ∀ g, t.requiredBy g = t.view.requiredBy g
  edges : t.edges = t.view.edges
  successors : ∀ n, t.successors n = t.view.successors n

theorem mem_map_parcelId {p : ParcelId} {ns : List Nat} :
    p ∈ ns.map ParcelId.mk ↔ p.index ∈ ns :=
  List.mem_map_of_injective fun _ _ h => congrArg ParcelId.index h

theorem mem_map_groupId {g : GroupId} {ns : List Nat} :
    g ∈ ns.map GroupId.mk ↔ g.index ∈ ns :=
  List.mem_map_of_injective fun _ _ h => congrArg GroupId.index h

section Recorded

variable {t : Tables} {g : GroupId} {p : ParcelId} {n m : Node}
variable (h : t.toRelations.Records t.view.Declares)

include h

theorem mem_members : p ∈ t.members g ↔ t.view.IsEdge (.group g) (.parcel p) :=
  mem_map_parcelId.trans (h.row ⟨.membership, g.index, p.index⟩)

theorem mem_groupsOf : g ∈ t.groupsOf p ↔ t.view.IsEdge (.group g) (.parcel p) :=
  mem_map_groupId.trans (h.column ⟨.membership, g.index, p.index⟩)

theorem mem_requires : g ∈ t.requires p ↔ t.view.IsEdge (.parcel p) (.group g) :=
  mem_map_groupId.trans (h.row ⟨.requirement, p.index, g.index⟩)

theorem mem_requiredBy : p ∈ t.requiredBy g ↔ t.view.IsEdge (.parcel p) (.group g) :=
  mem_map_parcelId.trans (h.column ⟨.requirement, p.index, g.index⟩)

/-- The links are the declared edges, each of them once. -/
theorem mem_ends : (n, m) ∈ t.links.map Link.ends ↔ t.view.IsEdge n m := by
  rw [List.mem_map]
  constructor
  · rintro ⟨l, hl, hends⟩
    have hdeclared : t.view.IsEdge l.ends.1 l.ends.2 := (h.links l).1 hl
    rwa [hends] at hdeclared
  · intro hedge
    obtain ⟨l, hends⟩ := exists_link hedge
    refine ⟨l, (h.links l).2 ?_, hends⟩
    rw [Declares, hends]
    exact hedge

theorem nodup_ends : (t.links.map Link.ends).Nodup :=
  h.nodup.map Link.ends_injective

theorem mem_successors : m ∈ t.successors n ↔ t.view.IsEdge n m := by
  rw [← mem_ends h, successors, List.mem_mergeSort]
  simp only [List.mem_map, List.mem_filter, decide_eq_true_eq, and_assoc, Prod.ext_iff]

/-- Where a node leads to stands in ascending order. All of it is of one kind, so that positions
tell it apart. -/
theorem pairwise_successors :
    (t.successors n).Pairwise fun a b => t.position a < t.position b := by
  have hle : (t.successors n).Pairwise fun a b => t.position a ≤ t.position b := by
    refine (List.pairwise_mergeSort ?_ ?_ _).imp of_decide_eq_true
    · intro a b c hab hbc
      exact decide_eq_true (Nat.le_trans (of_decide_eq_true hab) (of_decide_eq_true hbc))
    · intro a b
      simpa using Nat.le_total (t.position a) (t.position b)
  have hnodup : (t.successors n).Nodup := by
    rw [successors, (List.mergeSort_perm _ _).nodup_iff]
    refine (h.nodup.filter _).map_on fun l hl k hk htarget => Link.ends_injective ?_
    have hsource := of_decide_eq_true (List.mem_filter.1 hl).2
    exact Prod.ext (hsource.trans (of_decide_eq_true (List.mem_filter.1 hk).2).symm) htarget
  refine (hle.and hnodup).imp_of_mem fun {a b} ha hb hboth => ?_
  refine Nat.lt_of_le_of_ne hboth.1 fun heq => hboth.2 ?_
  have hkind := ((mem_successors h).1 ha).isGroup.trans ((mem_successors h).1 hb).isGroup.symm
  cases a with
  | group g =>
    cases b with
    | group k => exact congrArg _ (congrArg GroupId.mk heq)
    | parcel _ => cases hkind
  | parcel p =>
    cases b with
    | group _ => cases hkind
    | parcel q => exact congrArg _ (congrArg ParcelId.mk (Nat.add_left_cancel heq))

theorem members_eq : t.members g = t.view.members g := by
  refine eq_of_ascending ParcelId.index ?_ pairwise_members fun p => ?_
  · rw [members, List.pairwise_map]
    exact (h.ascending _).row _
  · rw [mem_members h, ← leads_iff_isEdge, Leads, parcel_mem_successors]

theorem groupsOf_eq : t.groupsOf p = t.view.groupsOf p := by
  refine eq_of_ascending GroupId.index ?_ (pairwise_groupIds.filter _) fun g => ?_
  · rw [groupsOf, List.pairwise_map]
    exact (h.ascending _).column _
  · rw [mem_groupsOf h, ← leads_iff_isEdge, Leads, parcel_mem_successors, Graph.mem_members,
      Graph.mem_groupsOf]

theorem requires_eq : t.requires p = t.view.requires p := by
  refine eq_of_ascending GroupId.index ?_ (pairwise_groupIds.filter _) fun g => ?_
  · rw [requires, List.pairwise_map]
    exact (h.ascending _).row _
  · rw [mem_requires h, ← leads_iff_isEdge, Leads, group_mem_successors]

theorem requiredBy_eq : t.requiredBy g = t.view.requiredBy g := by
  rw [requiredBy_eq_filter]
  refine eq_of_ascending ParcelId.index ?_ (pairwise_parcelIds.filter _) fun p => ?_
  · rw [requiredBy, List.pairwise_map]
    exact (h.ascending _).column _
  · rw [mem_requiredBy h, ← leads_iff_isEdge, Leads, group_mem_successors, Graph.mem_requires,
      ← requiredBy_eq_filter, Graph.mem_requiredBy]

theorem successors_eq : t.successors n = t.view.successors n := by
  refine eq_of_ascending t.position (pairwise_successors h) ?_ fun m => ?_
  · cases n with
    | group g =>
      rw [Graph.successors, List.pairwise_map]
      exact pairwise_members.imp fun hlt => Nat.add_lt_add_left hlt _
    | parcel p =>
      rw [Graph.successors, List.pairwise_map]
      exact pairwise_groupIds.filter _
  · rw [mem_successors h, ← leads_iff_isEdge, Leads]

theorem edges_eq : t.edges = t.view.edges := by
  have hmembers : t.members = t.view.members := funext fun _ => members_eq h
  have hrequires : t.requires = t.view.requires := funext fun _ => requires_eq h
  rw [edges, Graph.edges, membershipEdges, requirementEdges, hmembers, hrequires]

end Recorded

/-- The groups required from the start are the global one and those declared so. -/
theorem rootRequired_ofRelations {G : Graph} {r : Relations} :
    (ofRelations G.invoice r).rootRequired = G.rootRequired := by
  refine eq_of_ascending GroupId.index ?_ (pairwise_groupIds.filter _) fun g => ?_
  · have hplaces : G.invoice.groups.zipIdx.Pairwise fun d e => d.2 < e.2 := by
      rw [← List.pairwise_map, List.zipIdx_map_snd]
      exact List.pairwise_lt_range'
    rw [ofRelations, List.pairwise_cons, List.pairwise_map]
    constructor
    · intro g hg
      obtain ⟨d, -, rfl⟩ := List.mem_map.1 hg
      exact Nat.succ_pos d.2
    · exact (hplaces.filter _).imp Nat.succ_lt_succ
  · rw [ofRelations, Graph.rootRequired, List.mem_cons, List.mem_map, List.mem_filter]
    constructor
    · rintro (rfl | ⟨⟨group, k⟩, hd, rfl⟩)
      · exact ⟨global_mem_groupIds, rfl⟩
      · obtain ⟨hd, hrequired⟩ := List.mem_filter.1 hd
        have hgroup : G.group? ⟨k + 1⟩ = some group := List.mk_mem_zipIdx_iff_getElem?.1 hd
        exact ⟨mem_groupIds_of_group? hgroup, (isRootRequired_of_group? hgroup).trans hrequired⟩
    · rintro ⟨hg, hrequired⟩
      rcases eq_global_or_declared hg with rfl | ⟨group, hgroup⟩
      · exact .inl rfl
      · rw [isRootRequired_of_group? hgroup] at hrequired
        obtain ⟨index⟩ := g
        cases index with
        | zero => cases hgroup
        | succ k =>
          refine .inr ⟨(group, k), List.mem_filter.2 ⟨?_, hrequired⟩, rfl⟩
          exact List.mk_mem_zipIdx_iff_getElem?.2 hgroup

/-- A well-formed invoice has tables. They record what it declares, and agree with what is read off
it. -/
theorem exists_build {i : Invoice} (hi : i.WellFormed) :
    ∃ t, Tables.build i = .ok t ∧ t.invoice = i ∧ t.toRelations.Records t.view.Declares ∧
      t.AgreesWithView := by
  let G : Graph := { invoice := i }
  obtain ⟨ls, hrun, hls⟩ := Relations.enters_declared hi (.empty G.groupCount G.parcelCount)
  have hrecords := (Relations.records_empty G.groupCount G.parcelCount).foldl_insert
    fun l hl => Relations.hasRoom_of_declares ((hls l).1 hl)
  have hsame : (fun l => l ∈ ls ∨ False) = G.Declares :=
    funext fun l => by rw [or_false, hls]
  rw [hsame] at hrecords
  refine ⟨_, congrArg (Except.map (ofRelations i)) hrun, rfl, hrecords, ?_⟩
  exact {
    groupIndex _ := get?_indexGroups hi
    parcelIndex _ := get?_indexParcels hi
    rootRequired := rootRequired_ofRelations
    members _ := members_eq hrecords
    groupsOf _ := groupsOf_eq hrecords
    requires _ := requires_eq hrecords
    requiredBy _ := requiredBy_eq hrecords
    edges := edges_eq hrecords
    successors _ := successors_eq hrecords }

/-! ## The tables and the declarations -/

/-- The pairs of nodes that a search along the links goes along, node by node. -/
def arcs (t : Tables) : List (Node × Node) :=
  t.view.nodes.flatMap fun n => (t.successors n).map fun m => (n, m)

/-- The tables say of groups and parcels what their declarations say, and nothing else. -/
structure IsExact (t : Tables) : Prop where
  /-- Members and the groups of a parcel are as declared. -/
  membership : ∀ g ∈ t.view.groupIds, ∀ p parcel, t.view.parcel? p = some parcel →
    (p ∈ t.members g ↔ parcel.BelongsTo (t.view.groupRef g)) ∧
      (g ∈ t.groupsOf p ↔ parcel.BelongsTo (t.view.groupRef g))
  /-- Requirements are as declared, from both sides. -/
  requirement : ∀ g ∈ t.view.groupIds, ∀ p parcel, t.view.parcel? p = some parcel →
    (g ∈ t.requires p ↔ parcel.CallsFor (t.view.groupRef g)) ∧
      (p ∈ t.requiredBy g ↔ parcel.CallsFor (t.view.groupRef g))
  /-- Every group that a declaration names is in the graph, at one position. -/
  declared : ∀ parcel ∈ t.invoice.parcels, ∀ ref, parcel.BelongsTo ref ∨ parcel.CallsFor ref →
    ∃! g, g ∈ t.view.groupIds ∧ t.view.groupRef g = ref
  /-- Each pair of a group and a member is listed once. -/
  membershipEdge : ∀ g ∈ t.view.groupIds, ∀ p ∈ t.view.parcelIds,
    t.edges.count ⟨t.view.groupName g, .membership, t.view.parcelName p⟩ =
      if p ∈ t.members g then 1 else 0
  /-- Each pair of a parcel and a group that it requires is listed once. -/
  requirementEdge : ∀ p ∈ t.view.parcelIds, ∀ g ∈ t.view.groupIds,
    t.edges.count ⟨t.view.parcelName p, .requirement, t.view.groupName g⟩ =
      if g ∈ t.requires p then 1 else 0
  /-- Nothing but what the search for cycles goes along is listed, and in the order of nodes. -/
  edges : t.edges = t.arcs.map t.view.edgeBetween
  arcs : t.arcs.Pairwise (Prod.Lex Node.Precedes Node.Precedes)
  /-- There is one link for each edge that is declared. -/
  linked : ∀ n m, ((n, m) ∈ t.links.map Link.ends ↔ t.view.IsEdge n m) ∧
    (t.links.map Link.ends).count (n, m) ≤ 1
  /-- The search goes along the edges that are declared, along each of them once. -/
  searched : ∀ n m, (m ∈ t.successors n ↔ t.view.IsEdge n m) ∧
    ((n, m) ∈ t.arcs ↔ t.view.IsEdge n m) ∧
    (t.successors n).count m ≤ 1 ∧ t.arcs.count (n, m) ≤ 1

theorem arcs_eq {t : Tables} (h : t.toRelations.Records t.view.Declares) :
    t.arcs = t.view.arcs := by
  have hsuccessors : t.successors = t.view.successors := funext fun _ => successors_eq h
  rw [arcs, Graph.arcs, hsuccessors]

theorem isExact_of_records {t : Tables} (ht : t.invoice.WellFormed)
    (h : t.toRelations.Records t.view.Declares) : t.IsExact where
  membership g hg p parcel hp := by
    have hbelongs := (declares_membership hp).trans (and_iff_right hg)
    exact ⟨(mem_members h).trans hbelongs, (mem_groupsOf h).trans hbelongs⟩
  requirement g hg p parcel hp := by
    have hcalls := (declares_requirement hp).trans (and_iff_right hg)
    exact ⟨(mem_requires h).trans hcalls, (mem_requiredBy h).trans hcalls⟩
  declared _ hp _ href := existsUnique_groupRef ht hp href
  membershipEdge g hg p hp := by
    rw [edges_eq h, members_eq h]
    exact count_edgeBetween ht (group_mem_nodes.2 hg) (parcel_mem_nodes.2 hp) rfl
      parcel_mem_successors
  requirementEdge p hp g hg := by
    rw [edges_eq h, requires_eq h]
    exact count_edgeBetween ht (parcel_mem_nodes.2 hp) (group_mem_nodes.2 hg) rfl
      group_mem_successors
  edges := by
    rw [edges_eq h, arcs_eq h, Graph.edges_eq]
  arcs := by
    rw [arcs_eq h]
    exact pairwise_arcs
  linked n m := ⟨mem_ends h, List.nodup_iff_count_le_one.1 (nodup_ends h) (n, m)⟩
  searched n m := by
    rw [arcs_eq h, successors_eq h]
    refine ⟨leads_iff_isEdge, mem_arcs, ?_, ?_⟩
    · exact List.nodup_iff_count_le_one.1 nodup_successors m
    · exact List.nodup_iff_count_le_one.1 nodup_arcs (n, m)

end Tables

/-- **The graph of a valid invoice is exactly what is declared.** It is built without an error. In
what is built, a parcel is a member of a group, seen from either, when it lists the group, or has
no list and the group is global; and it requires a group, seen from either, when it names it. Each
pair is listed once, memberships by group and then requirements by parcel, and there is one link
for each of them for the search for cycles. All of it is also what is read off the declarations. -/
theorem isExact_of_isValid {i : Invoice} (hi : i.IsValid) :
    ∃ t, Tables.build i = .ok t ∧ t.invoice = i ∧ t.IsExact ∧ t.AgreesWithView := by
  obtain ⟨t, hbuild, rfl, hrecords, hagrees⟩ := Tables.exists_build hi.wellFormed
  exact ⟨t, hbuild, rfl, Tables.isExact_of_records hi.wellFormed hrecords, hagrees⟩

end Bindle.Graph

namespace Bindle.Worked

/-- In the worked scenario the first tool is listed under both of its groups, the excluded parcel
under none, and the links stand in the order in which the parcels declare them. -/
theorem isExact_graph :
    invoice.IsValid ∧
      (∃ t, Graph.Tables.build invoice = .ok t ∧ t.invoice = invoice ∧ t.IsExact ∧
        t.AgreesWithView) ∧
      (Graph.Tables.build invoice).toOption.map (·.edges) = some
        [⟨"<global>", .membership, "readme"⟩, ⟨"server", .membership, "daemon"⟩,
          ⟨"cli", .membership, "first"⟩, ⟨"cli", .membership, "second"⟩,
          ⟨"utility", .membership, "first"⟩, ⟨"utility", .membership, "third"⟩,
          ⟨"daemon", .requirement, "utility"⟩] ∧
      (Graph.Tables.build invoice).toOption.map (·.links) = some
        [⟨.membership, 1, 0⟩, ⟨.requirement, 0, 3⟩, ⟨.membership, 2, 1⟩, ⟨.membership, 3, 1⟩,
          ⟨.membership, 2, 2⟩, ⟨.membership, 3, 3⟩, ⟨.membership, 0, 4⟩] :=
  ⟨isValid, Graph.isExact_of_isValid isValid, by decide +kernel, by decide +kernel⟩

end Bindle.Worked
