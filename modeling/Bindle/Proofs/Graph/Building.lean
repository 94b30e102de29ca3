import Bindle.Proofs.Graph.Collecting
import Bindle.Proofs.Graph.Relations
import Bindle.Proofs.Sorted.Lookup

/-!
# Building the graph

`Tables.build` of `Bindle.Graph.Tables` goes through the parcels of an invoice and enters what each
of them declares. In a well-formed invoice every reference finds the group of its name, so nothing
fails, each parcel enters just the edges that it declares, and all of them together enter every
declared edge. In any other invoice the building may fail, and then the error names a reference to
a group that is not declared.

* `get?_indexGroups`, `get?_indexParcels`: the indices find what the declarations have.
* `findGroup_eq_ok_iff`: a reference finds the group that is shown like it.
* `Relations.enters_addParcel`, `Relations.enters_declared`: what one parcel adds, and all of them.
* `Tables.isOf_of_build_eq_error`: why building fails.
-/

namespace Bindle.Graph

/-! ## Looking up names -/

/-- With different keys, a key stands for one position. -/
theorem get?_indexBy_eq_some_iff {α β : Type} {key : α → String} {place : Nat → β} {l : List α}
    (hl : (l.map key).Nodup) {name : String} {b : β} :
    (indexBy key place l).get? name = some b ↔
      ∃ i a, l[i]? = some a ∧ key a = name ∧ place i = b := by
  have hkeys : (l.zipIdx.map fun d => (key d.1, place d.2)).map Prod.fst = l.map key :=
    calc (l.zipIdx.map fun d => (key d.1, place d.2)).map Prod.fst
        = (l.zipIdx.map Prod.fst).map key := by
          rw [List.map_map, List.map_map]
          rfl
      _ = l.map key := by rw [List.zipIdx_map_fst]
  rw [indexBy, StringMap.get?_ofList_eq,
    StringMap.lookup_eq_some_iff_mem (by rwa [List.map_reverse, List.nodup_reverse, hkeys]),
    List.mem_reverse, List.mem_map]
  constructor
  · rintro ⟨⟨a, i⟩, hmem, heq⟩
    obtain ⟨hkey, hplace⟩ := Prod.mk.inj heq
    exact ⟨i, a, List.mk_mem_zipIdx_iff_getElem?.1 hmem, hkey, hplace⟩
  · rintro ⟨i, a, ha, rfl, rfl⟩
    exact ⟨(a, i), List.mk_mem_zipIdx_iff_getElem?.2 ha, rfl⟩

section Lookup

variable {G : Graph} {g : GroupId} {p : ParcelId} {parcel : Parcel} {name : String}

/-- The index finds what the declarations have under a name. -/
theorem get?_indexGroups (hG : G.invoice.WellFormed) :
    (Tables.indexGroups G.invoice).get? name = G.groupId? name := by
  refine Option.ext fun g => ?_
  rw [groupId?_eq_some_iff hG, Tables.indexGroups, get?_indexBy_eq_some_iff hG.groupTexts_nodup]
  constructor
  · rintro ⟨i, group, hgroup, hname, rfl⟩
    exact ⟨group, hgroup, hname⟩
  · rintro ⟨group, hgroup, hname⟩
    obtain ⟨index⟩ := g
    cases index with
    | zero => cases hgroup
    | succ i => exact ⟨i, group, hgroup, hname, rfl⟩

theorem get?_indexParcels (hG : G.invoice.WellFormed) :
    (Tables.indexParcels G.invoice).get? name = G.parcelId? name := by
  refine Option.ext fun p => ?_
  rw [parcelId?_eq_some_iff hG, Tables.indexParcels, get?_indexBy_eq_some_iff hG.parcelNames_nodup]
  constructor
  · rintro ⟨i, parcel, hparcel, hname, rfl⟩
    exact ⟨parcel, hparcel, hname⟩
  · rintro ⟨parcel, hparcel, hname⟩
    exact ⟨p.index, parcel, hparcel, hname, rfl⟩

theorem groupRef_eq_global_iff (hg : g ∈ G.groupIds) : G.groupRef g = .global ↔ g = .global := by
  rcases eq_global_or_declared hg with rfl | ⟨group, hgroup⟩
  · exact iff_of_true rfl rfl
  · rw [groupRef_of_group? hgroup]
    refine iff_of_false (by simp) ?_
    rintro rfl
    cases hgroup

/-- What a reference finds is the group that is shown like it. -/
theorem findGroup_eq_ok_iff (hG : G.invoice.WellFormed) {ref : GroupRef} :
    findGroup (Tables.indexGroups G.invoice) parcel ref = .ok g ↔
      g ∈ G.groupIds ∧ G.groupRef g = ref := by
  cases ref with
  | global =>
    constructor
    · rintro ⟨⟩
      exact ⟨global_mem_groupIds, rfl⟩
    · rintro ⟨hg, href⟩
      rw [(groupRef_eq_global_iff hg).1 href]
      rfl
  | named name =>
    have hfound : findGroup (Tables.indexGroups G.invoice) parcel (.named name) = .ok g ↔
        G.groupId? name.text = some g := by
      rw [findGroup, get?_indexGroups hG]
      cases G.groupId? name.text <;> simp
    rw [hfound, groupId?_eq_some_iff hG]
    constructor
    · rintro ⟨group, hgroup, hname⟩
      rw [← GroupName.text_inj.1 hname]
      exact ⟨mem_groupIds_of_group? hgroup, groupRef_of_group? hgroup⟩
    · rintro ⟨-, href⟩
      obtain ⟨group, hgroup, rfl⟩ := groupRef_eq_named_iff.1 href
      exact ⟨group, hgroup, rfl⟩

/-- In a well-formed invoice every reference of a parcel finds a group. -/
theorem exists_findGroup (hG : G.invoice.WellFormed) (hp : parcel ∈ G.invoice.parcels)
    {ref : GroupRef} (href : ref = .global ∨ parcel.BelongsTo ref ∨ parcel.CallsFor ref) :
    ∃ g, findGroup (Tables.indexGroups G.invoice) parcel ref = .ok g := by
  rcases href with rfl | href
  · exact ⟨.global, rfl⟩
  · obtain ⟨g, hg, -⟩ := existsUnique_groupRef hG hp href
    exact ⟨g, (findGroup_eq_ok_iff hG).2 hg⟩

end Lookup

/-! ## What a parcel adds -/

/-- The parcel at one end of an edge. -/
def Link.parcelId : Link → ParcelId
  | ⟨.membership, _, p⟩ => ⟨p⟩
  | ⟨.requirement, p, _⟩ => ⟨p⟩

/-- The edge is declared. -/
def Declares (G : Graph) (l : Link) : Prop :=
  G.IsEdge l.ends.1 l.ends.2

section Declared

variable {G : Graph} {g : GroupId} {p : ParcelId} {parcel : Parcel}

theorem declares_membership (hp : G.parcel? p = some parcel) :
    G.Declares ⟨.membership, g.index, p.index⟩ ↔
      g ∈ G.groupIds ∧ parcel.BelongsTo (G.groupRef g) := by
  show G.IsEdge (.group g) (.parcel p) ↔ _
  rw [← leads_iff_isEdge, Leads, parcel_mem_successors, mem_members]
  constructor
  · intro h
    have hg := mem_groupIds_of_holds h
    exact ⟨hg, (holds_iff_belongsTo hg hp).1 h⟩
  · rintro ⟨hg, h⟩
    exact (holds_iff_belongsTo hg hp).2 h

theorem declares_requirement (hp : G.parcel? p = some parcel) :
    G.Declares ⟨.requirement, p.index, g.index⟩ ↔
      g ∈ G.groupIds ∧ parcel.CallsFor (G.groupRef g) := by
  show G.IsEdge (.parcel p) (.group g) ↔ _
  rw [← leads_iff_isEdge, Leads, group_mem_successors, mem_requires]
  constructor
  · intro h
    have hg := mem_groupIds_of_needs h
    exact ⟨hg, (needs_iff_callsFor hg hp).1 h⟩
  · rintro ⟨hg, h⟩
    exact (needs_iff_callsFor hg hp).2 h

/-- A parcel calls for what it requires, up to the global group. -/
theorem callsFor_groupRef_iff (hg : g ∈ G.groupIds) :
    parcel.CallsFor (G.groupRef g) ↔ g ≠ .global ∧ G.groupRef g ∈ parcel.requires := by
  rw [ne_eq, ← groupRef_eq_global_iff hg]
  cases G.groupRef g with
  | global => simp [Parcel.CallsFor]
  | named name => simp [Parcel.CallsFor]

theorem exists_parcel?_of_declares {l : Link} (h : G.Declares l) :
    ∃ parcel, G.parcel? l.parcelId = some parcel := by
  rw [← mem_parcelIds_iff]
  obtain ⟨kind, source, target⟩ := l
  cases kind with
  | membership => exact parcel_mem_nodes.1 (IsEdge.mem_nodes h).2
  | requirement => exact parcel_mem_nodes.1 (IsEdge.mem_nodes h).1

/-- What leads from one node to another is an edge. -/
theorem exists_link {n m : Node} (h : G.IsEdge n m) : ∃ l : Link, l.ends = (n, m) := by
  cases n with
  | group g =>
    cases m with
    | group _ => cases h
    | parcel p => exact ⟨⟨.membership, g.index, p.index⟩, rfl⟩
  | parcel p =>
    cases m with
    | group g => exact ⟨⟨.requirement, p.index, g.index⟩, rfl⟩
    | parcel _ => cases h

theorem Link.ends_injective : Function.Injective Link.ends := by
  rintro ⟨⟨⟩, i, j⟩ ⟨⟨⟩, i', j'⟩ h <;> simp_all [Link.ends]

end Declared

namespace Relations

variable {G : Graph} {g : GroupId} {p : ParcelId} {parcel : Parcel}

theorem exists_mapM_eq_ok {α β ε : Type} {f : α → Except ε β} {as : List α}
    (h : ∀ a ∈ as, ∃ b, f a = .ok b) :
    ∃ bs, as.mapM f = .ok bs ∧ ∀ b, b ∈ bs ↔ ∃ a ∈ as, f a = .ok b := by
  induction as with
  | nil => exact ⟨[], rfl, by simp⟩
  | cons a as ih =>
    obtain ⟨⟨b, hb⟩, has⟩ := List.forall_mem_cons.1 h
    obtain ⟨bs, hbs, hmem⟩ := ih has
    refine ⟨b :: bs, ?_, fun c => ?_⟩
    · rw [List.mapM_cons, hb]
      simp [hbs, bind, Except.bind, pure, Except.pure]
    · rw [List.mem_cons, hmem, List.exists_mem_cons_iff, hb, Except.ok.injEq, eq_comm]

/-- A parcel is put into the groups that it belongs to. -/
theorem exists_placesOf (hG : G.invoice.WellFormed) (hp : parcel ∈ G.invoice.parcels) :
    ∃ groups, placesOf (Tables.indexGroups G.invoice) parcel = .ok groups ∧
      ∀ g, g ∈ groups ↔ g ∈ G.groupIds ∧ parcel.BelongsTo (G.groupRef g) := by
  rw [placesOf]
  cases hlist : parcel.memberOf with
  | none =>
    refine ⟨[.global], rfl, fun g => ?_⟩
    rw [List.mem_singleton]
    constructor
    · rintro rfl
      exact ⟨global_mem_groupIds, hlist⟩
    · rintro ⟨hg, hbelongs⟩
      rw [← groupRef_eq_global_iff hg]
      cases href : G.groupRef g with
      | global => rfl
      | named name =>
        rw [href] at hbelongs
        obtain ⟨names, hnames, -⟩ := hbelongs
        simp [hlist] at hnames
  | some names =>
    have hfound : ∀ name ∈ names, ∃ g,
        findGroup (Tables.indexGroups G.invoice) parcel (.named name) = .ok g :=
      fun name hname => exists_findGroup hG hp (.inr (.inl ⟨names, hlist, hname⟩))
    obtain ⟨groups, hgroups, hmem⟩ := exists_mapM_eq_ok hfound
    refine ⟨groups, hgroups, fun g => ?_⟩
    rw [hmem]
    simp only [findGroup_eq_ok_iff hG]
    constructor
    · rintro ⟨name, hname, hg, href⟩
      rw [href]
      exact ⟨hg, names, hlist, hname⟩
    · rintro ⟨hg, hbelongs⟩
      cases href : G.groupRef g with
      | global =>
        rw [href, Parcel.BelongsTo, hlist] at hbelongs
        cases hbelongs
      | named name =>
        rw [href] at hbelongs
        obtain ⟨_, hnames, hname⟩ := hbelongs
        obtain rfl := Option.some.inj (hlist.symm.trans hnames)
        exact ⟨name, hname, hg, rfl⟩

/-- A reference adds one edge, and none if it is to the global group. -/
theorem enters_addRequirement (hG : G.invoice.WellFormed) (hp : parcel ∈ G.invoice.parcels)
    {ref : GroupRef} (href : ref ∈ parcel.requires) :
    Enters (addRequirement (Tables.indexGroups G.invoice) p parcel · ref) fun l =>
      ∃ g ∈ G.groupIds, g ≠ .global ∧ G.groupRef g = ref ∧
        l = ⟨.requirement, p.index, g.index⟩ := by
  intro r
  have hcalls : ref = .global ∨ parcel.BelongsTo ref ∨ parcel.CallsFor ref := by
    cases ref with
    | global => exact .inl rfl
    | named name => exact .inr (.inr href)
  obtain ⟨g, hfound⟩ := exists_findGroup hG hp hcalls
  have honly : ∀ h, h ∈ G.groupIds ∧ G.groupRef h = ref ↔ h = g := by
    intro h
    have hfinds : findGroup _ parcel ref = .ok h ↔ _ := findGroup_eq_ok_iff hG
    rw [← hfinds, hfound, Except.ok.injEq, eq_comm]
  obtain ⟨hg, hgref⟩ := (honly g).2 rfl
  by_cases hglobal : g = .global
  · refine ⟨[], ?_, fun l => ?_⟩
    · simp [addRequirement, hfound, isGlobal_iff.2 hglobal, bind, Except.bind, pure, Except.pure]
    · refine iff_of_false List.not_mem_nil ?_
      rintro ⟨h, hh, hne, hhref, -⟩
      exact hne (((honly h).1 ⟨hh, hhref⟩).trans hglobal)
  · refine ⟨[⟨.requirement, p.index, g.index⟩], ?_, fun l => ?_⟩
    · have hnot : g.isGlobal = false :=
        Bool.eq_false_iff.2 fun h => hglobal (isGlobal_iff.1 h)
      simp [addRequirement, hfound, hnot, bind, Except.bind, pure, Except.pure]
    · rw [List.mem_singleton]
      constructor
      · rintro rfl
        exact ⟨g, hg, hglobal, hgref, rfl⟩
      · rintro ⟨h, hh, -, hhref, rfl⟩
        rw [(honly h).1 ⟨hh, hhref⟩]

/-- A parcel adds the edges that it declares. -/
theorem enters_addParcel (hG : G.invoice.WellFormed) (hp : G.parcel? p = some parcel) :
    Enters (addParcel (Tables.indexGroups G.invoice) · (p, parcel)) fun l =>
      l.parcelId = p ∧ G.Declares l := by
  have hmem := mem_parcels_of_parcel? hp
  obtain ⟨groups, hgroups, hplaces⟩ := exists_placesOf hG hmem
  have hrequired : Enters (parcel.requires.foldlM (addRequirement _ p parcel)) _ :=
    Enters.foldlM fun ref href => enters_addRequirement (p := p) hG hmem href
  intro r
  obtain ⟨ls, hls, hlinks⟩ := hrequired
    (groups.foldl (fun r g => r.insert ⟨.membership, g.index, p.index⟩) r)
  refine ⟨groups.map (fun g => ⟨.membership, g.index, p.index⟩) ++ ls, ?_, fun l => ?_⟩
  · rw [List.foldl_append, List.foldl_map]
    simp only [addParcel, hgroups]
    exact hls
  · rw [List.mem_append, List.mem_map, hlinks]
    constructor
    · rintro (⟨g, hg, rfl⟩ | ⟨ref, href, g, hg, hne, rfl, rfl⟩)
      · exact ⟨rfl, (declares_membership hp).2 ((hplaces g).1 hg)⟩
      · exact ⟨rfl, (declares_requirement hp).2 ⟨hg, (callsFor_groupRef_iff hg).2 ⟨hne, href⟩⟩⟩
    · obtain ⟨kind, source, target⟩ := l
      cases kind with
      | membership =>
        rintro ⟨rfl, hdeclared⟩
        exact .inl ⟨⟨source⟩, (hplaces _).2 ((declares_membership hp).1 hdeclared), rfl⟩
      | requirement =>
        rintro ⟨rfl, hdeclared⟩
        obtain ⟨hg, hcalls⟩ := (declares_requirement (g := ⟨target⟩) hp).1 hdeclared
        obtain ⟨hne, href⟩ := (callsFor_groupRef_iff hg).1 hcalls
        exact .inr ⟨_, href, ⟨target⟩, hg, hne, rfl, rfl⟩

/-- All parcels together add what is declared. -/
theorem enters_declared (hG : G.invoice.WellFormed) :
    Enters (G.declaredParcels.foldlM (addParcel (Tables.indexGroups G.invoice))) G.Declares := by
  have hstep : ∀ d ∈ G.declaredParcels, Enters (addParcel (Tables.indexGroups G.invoice) · d)
      fun l => l.parcelId = d.1 ∧ G.Declares l :=
    fun d hd => enters_addParcel hG (mem_declaredParcels.1 hd)
  refine (Enters.foldlM hstep).congr fun l => ?_
  constructor
  · rintro ⟨d, -, -, hdeclared⟩
    exact hdeclared
  · intro hdeclared
    obtain ⟨parcel, hp⟩ := exists_parcel?_of_declares hdeclared
    exact ⟨(l.parcelId, parcel), mem_declaredParcels.2 hp, rfl, hdeclared⟩

/-- There is room for all of it from the start. -/
theorem hasRoom_of_declares {l : Link} (h : G.Declares l) :
    (Relations.empty G.groupCount G.parcelCount).HasRoom l := by
  have hnodes := IsEdge.mem_nodes h
  obtain ⟨kind, source, target⟩ := l
  simp only [HasRoom, empty]
  cases kind with
  | membership =>
    simpa [PairTable.empty] using And.intro (mem_groupIds.1 (group_mem_nodes.1 hnodes.1))
      (mem_parcelIds.1 (parcel_mem_nodes.1 hnodes.2))
  | requirement =>
    simpa [PairTable.empty] using And.intro (mem_parcelIds.1 (parcel_mem_nodes.1 hnodes.1))
      (mem_groupIds.1 (group_mem_nodes.1 hnodes.2))

end Relations

/-! ## References to no group -/

section Failing

variable {i : Invoice} {parcel : Parcel} {e : UnknownReference} {ε α β : Type}

theorem exists_of_mapM_eq_error {f : α → Except ε β} {as : List α} {e : ε}
    (h : as.mapM f = .error e) : ∃ a ∈ as, f a = .error e := by
  induction as with
  | nil => cases h
  | cons a as ih =>
    rw [List.mapM_cons] at h
    cases ha : f a with
    | error e' =>
      rw [ha] at h
      cases h
      exact ⟨a, List.mem_cons_self, ha⟩
    | ok b =>
      cases hrest : as.mapM f with
      | error e' =>
        rw [ha, hrest] at h
        cases h
        obtain ⟨a', ha', hfails⟩ := ih hrest
        exact ⟨a', List.mem_cons_of_mem a ha', hfails⟩
      | ok bs =>
        rw [ha, hrest] at h
        cases h

theorem exists_of_foldlM_eq_error {step : β → α → Except ε β} {as : List α} {b : β} {e : ε}
    (h : as.foldlM step b = .error e) : ∃ a ∈ as, ∃ b, step b a = .error e := by
  induction as generalizing b with
  | nil => cases h
  | cons a as ih =>
    rw [List.foldlM_cons] at h
    cases ha : step b a with
    | error e' =>
      rw [ha] at h
      cases h
      exact ⟨a, List.mem_cons_self, b, ha⟩
    | ok b' =>
      rw [ha] at h
      obtain ⟨a', ha', hfails⟩ := ih h
      exact ⟨a', List.mem_cons_of_mem a ha', hfails⟩

/-- The parcel of the name in the error refers to a group of the other name, and no such group is
declared. -/
def UnknownReference.IsOf (e : UnknownReference) (i : Invoice) (parcel : Parcel) : Prop :=
  parcel.name = e.parcel ∧ ∃ name, (parcel.Lists name ∨ .named name ∈ parcel.requires) ∧
    name.text = e.group ∧ name ∉ i.groupNames

theorem isOf_of_findGroup_eq_error {name : GroupName}
    (h : findGroup (Tables.indexGroups i) parcel (.named name) = .error e)
    (hrefers : parcel.Lists name ∨ .named name ∈ parcel.requires) : e.IsOf i parcel := by
  rw [findGroup] at h
  cases hfound : (Tables.indexGroups i).get? name.text with
  | some g =>
    rw [hfound] at h
    cases h
  | none =>
    rw [hfound] at h
    cases h
    refine ⟨rfl, name, hrefers, rfl, fun hmem => ?_⟩
    rw [Tables.indexGroups, indexBy, StringMap.get?_ofList_eq,
      StringMap.lookup_eq_none_iff_not_mem_keys] at hfound
    obtain ⟨group, hgroup, rfl⟩ := List.mem_map.1 hmem
    obtain ⟨k, hk⟩ := List.mem_iff_getElem?.1 hgroup
    refine hfound ?_
    simp only [List.map_reverse, List.mem_reverse, List.map_map, List.mem_map]
    exact ⟨(group, k), List.mk_mem_zipIdx_iff_getElem?.2 hk, rfl⟩

/-- Building fails only on a reference to a group that is not declared, and the error names it. -/
theorem Tables.isOf_of_build_eq_error (h : Tables.build i = .error e) :
    ∃ parcel ∈ i.parcels, e.IsOf i parcel := by
  let G : Graph := { invoice := i }
  have hloop : G.declaredParcels.foldlM (Relations.addParcel (indexGroups i))
      (.empty G.groupCount G.parcelCount) = .error e := by
    cases hrun : G.declaredParcels.foldlM (Relations.addParcel (indexGroups i))
        (.empty G.groupCount G.parcelCount) with
    | ok r =>
      have hbuild : Tables.build i = .ok (ofRelations i r) := congrArg (Except.map _) hrun
      rw [hbuild] at h
      cases h
    | error e' =>
      have hbuild : Tables.build i = .error e' := congrArg (Except.map (ofRelations i)) hrun
      rw [hbuild] at h
      exact congrArg _ (Except.error.inj h)
  obtain ⟨⟨p, parcel⟩, hd, r, hstep⟩ := exists_of_foldlM_eq_error hloop
  have hmem : parcel ∈ i.parcels := mem_parcels_of_parcel? (mem_declaredParcels.1 hd)
  refine ⟨parcel, hmem, ?_⟩
  simp only [Relations.addParcel] at hstep
  cases hplaces : placesOf (indexGroups i) parcel with
  | error e' =>
    rw [hplaces] at hstep
    cases hstep
    rw [placesOf] at hplaces
    cases hlist : parcel.memberOf with
    | none =>
      rw [hlist] at hplaces
      cases hplaces
    | some names =>
      rw [hlist] at hplaces
      obtain ⟨name, hname, hfind⟩ := exists_of_mapM_eq_error hplaces
      exact isOf_of_findGroup_eq_error hfind (.inl ⟨names, hlist, hname⟩)
  | ok groups =>
    rw [hplaces] at hstep
    obtain ⟨ref, href, r', hadd⟩ := exists_of_foldlM_eq_error hstep
    have hfind : findGroup (indexGroups i) parcel ref = .error e := by
      rw [Relations.addRequirement] at hadd
      cases hfound : findGroup (indexGroups i) parcel ref with
      | error e' =>
        rw [hfound] at hadd
        cases hadd
        rfl
      | ok g =>
        rw [hfound] at hadd
        cases hadd
    cases ref with
    | global => cases hfind
    | named name => exact isOf_of_findGroup_eq_error hfind (.inr href)

end Failing

end Bindle.Graph
