import Bindle.Proofs.Graph.Cycles

/-!
# The relations of the graph and the declarations

An invoice says in each parcel which groups the parcel belongs to and which it calls for. The graph
says the same from both sides of both relations, it lists each pair once and in order, and the
search for cycles goes along just these pairs. Nothing is lost on the way, because a valid invoice
names declared groups only, and nothing is counted twice, because names tell nodes apart.

* `Parcel.BelongsTo`, `Parcel.CallsFor`: the two relations, by the declaration of a parcel.
* `arcs`: the pairs of nodes that the search goes along; `edges_eq` says that they are the edges
  that are listed, and `pairwise_arcs` in which order.
* `edgeBetween_inj`, `count_edgeBetween`: two different pairs are listed differently, and each of
  them once.
-/

namespace Bindle

/-! ## Relations by declaration -/

/-- The parcel belongs to the groups that it lists, and without a list to the global one. -/
def Parcel.BelongsTo (p : Parcel) : GroupRef → Prop
  | .global => p.memberOf = none
  | .named name => p.Lists name

/-- The parcel calls for the named groups that it requires. The global group is required without
being called for. -/
def Parcel.CallsFor (p : Parcel) : GroupRef → Prop
  | .global => False
  | .named name => .named name ∈ p.requires

namespace Graph

variable {G : Graph} {g : GroupId} {p : ParcelId} {parcel : Parcel} {n m n' m' : Node}

theorem holds_iff_belongsTo (hg : g ∈ G.groupIds) (hp : G.parcel? p = some parcel) :
    G.holds g p = true ↔ parcel.BelongsTo (G.groupRef g) := by
  rw [holds_iff]
  rcases eq_global_or_declared hg with rfl | ⟨group, hgroup⟩
  · simp [hp, groupRef, Parcel.BelongsTo]
  · have hne : g ≠ .global := by
      rintro rfl
      cases hgroup
    simp [hp, hgroup, hne, groupRef_of_group? hgroup, Parcel.BelongsTo]

theorem needs_iff_callsFor (hg : g ∈ G.groupIds) (hp : G.parcel? p = some parcel) :
    G.needs p g = true ↔ parcel.CallsFor (G.groupRef g) := by
  rw [needs_iff]
  rcases eq_global_or_declared hg with rfl | ⟨group, hgroup⟩
  · simp [groupRef, Parcel.CallsFor]
  · simp [hp, hgroup, groupRef_of_group? hgroup, Parcel.CallsFor]

/-- In a well-formed invoice each group that a parcel belongs to or calls for is in the graph, at
one position. -/
theorem existsUnique_groupRef (hG : G.invoice.WellFormed) (hp : parcel ∈ G.invoice.parcels)
    {ref : GroupRef} (href : parcel.BelongsTo ref ∨ parcel.CallsFor ref) :
    ∃! g, g ∈ G.groupIds ∧ G.groupRef g = ref := by
  have hfound : ∃ g, g ∈ G.groupIds ∧ G.groupRef g = ref := by
    cases ref with
    | global => exact ⟨.global, global_mem_groupIds, rfl⟩
    | named name =>
      have hname : name ∈ G.invoice.groupNames := by
        rcases href with ⟨names, hnames, hmem⟩ | hcalls
        · exact (hG.namesDeclared parcel hp).memberOf names hnames name hmem
        · exact (hG.namesDeclared parcel hp).requires name hcalls
      obtain ⟨group, hgroup, rfl⟩ := List.mem_map.1 hname
      obtain ⟨g, hg⟩ := exists_group?_of_mem hgroup
      exact ⟨g, mem_groupIds_of_group? hg, groupRef_of_group? hg⟩
  obtain ⟨g, hg, hgref⟩ := hfound
  exact ⟨g, ⟨hg, hgref⟩, fun h hh => groupRef_inj hG hh.1 hg (hh.2.trans hgref.symm)⟩

/-! ## Order -/

/-- Groups come before parcels, and nodes of one kind stand by position. -/
def Node.Precedes : Node → Node → Prop
  | .group g, .group h => g.index < h.index
  | .parcel p, .parcel q => p.index < q.index
  | .group _, .parcel _ => True
  | .parcel _, .group _ => False

theorem Node.Precedes.ne (h : n.Precedes m) : n ≠ m := by
  rintro rfl
  cases n with
  | group g => exact Nat.lt_irrefl _ h
  | parcel p => exact Nat.lt_irrefl _ h

theorem pairwise_groupIds : G.groupIds.Pairwise (·.index < ·.index) := by
  rw [groupIds, List.pairwise_map]
  exact List.pairwise_lt_range

theorem pairwise_nodes : G.nodes.Pairwise Node.Precedes := by
  rw [nodes, List.pairwise_append, List.pairwise_map, List.pairwise_map]
  refine ⟨pairwise_groupIds, pairwise_parcelIds, fun n hn m hm => ?_⟩
  obtain ⟨g, -, rfl⟩ := List.mem_map.1 hn
  obtain ⟨p, -, rfl⟩ := List.mem_map.1 hm
  trivial

theorem pairwise_successors : (G.successors n).Pairwise Node.Precedes := by
  cases n with
  | group g =>
    rw [successors, List.pairwise_map]
    exact pairwise_members
  | parcel p =>
    rw [successors, List.pairwise_map]
    exact pairwise_groupIds.filter _

theorem nodup_successors : (G.successors n).Nodup :=
  pairwise_successors.imp Node.Precedes.ne

/-! ## Arcs -/

/-- The pairs of nodes that the search for cycles goes along, node by node. -/
def arcs (G : Graph) : List (Node × Node) :=
  G.nodes.flatMap fun n => (G.successors n).map fun m => (n, m)

theorem mem_arcs : (n, m) ∈ G.arcs ↔ G.IsEdge n m := by
  rw [← leads_iff_isEdge]
  simp only [arcs, List.mem_flatMap, List.mem_map, Prod.mk.injEq]
  constructor
  · rintro ⟨_, -, _, hm, rfl, rfl⟩
    exact hm
  · intro h
    exact ⟨n, h.mem_nodes.1, m, h, rfl, rfl⟩

/-- The arcs stand by the node that they leave, and those of one node by where they lead. -/
theorem pairwise_arcs : G.arcs.Pairwise (Prod.Lex Node.Precedes Node.Precedes) := by
  rw [arcs, List.pairwise_flatMap]
  constructor
  · intro n _
    rw [List.pairwise_map]
    exact pairwise_successors.imp fun h => .right _ h
  · refine pairwise_nodes.imp fun {n n'} hlt a ha b hb => ?_
    obtain ⟨m, -, rfl⟩ := List.mem_map.1 ha
    obtain ⟨m', -, rfl⟩ := List.mem_map.1 hb
    exact .left _ _ hlt

theorem nodup_arcs : G.arcs.Nodup := by
  refine pairwise_arcs.imp ?_
  rintro ⟨n, m⟩ ⟨n', m'⟩ hlt heq
  obtain ⟨rfl, rfl⟩ := Prod.mk.inj heq
  cases hlt with
  | left _ _ h => exact h.ne rfl
  | right _ h => exact h.ne rfl

/-! ## Listed edges -/

/-- What an edge says that leaves the node. -/
def Node.edgeKind : Node → EdgeKind
  | .group _ => .membership
  | .parcel _ => .requirement

/-- How an arc is listed. -/
def edgeBetween (G : Graph) (arc : Node × Node) : Edge :=
  ⟨G.nodeName arc.1, arc.1.edgeKind, G.nodeName arc.2⟩

/-- The edges listed are the arcs of the search, in the same order. -/
theorem edges_eq : G.edges = G.arcs.map G.edgeBetween := by
  simp only [edges, membershipEdges, requirementEdges, arcs, nodes, successors, edgeBetween,
    nodeName, Node.edgeKind, List.flatMap_append, List.flatMap_map, List.map_append,
    List.map_flatMap, List.map_map, Function.comp_def]

theorem Node.isGroup_eq_of_edgeKind (h : n.edgeKind = m.edgeKind) : n.isGroup = m.isGroup := by
  cases n with
  | group g =>
    cases m with
    | group h => rfl
    | parcel p => cases h
  | parcel p =>
    cases m with
    | group h => cases h
    | parcel q => rfl

/-- Nodes of one kind with one name are the same. -/
theorem nodeName_inj (hG : G.invoice.WellFormed) (hn : n ∈ G.nodes) (hm : m ∈ G.nodes)
    (hkind : n.isGroup = m.isGroup) (hname : G.nodeName n = G.nodeName m) : n = m := by
  cases n with
  | group g =>
    cases m with
    | group h =>
      exact congrArg _ (groupName_inj hG (group_mem_nodes.1 hn) (group_mem_nodes.1 hm) hname)
    | parcel p => cases hkind
  | parcel p =>
    cases m with
    | group h => cases hkind
    | parcel q =>
      obtain ⟨a, ha⟩ := mem_parcelIds_iff.1 (parcel_mem_nodes.1 hn)
      obtain ⟨b, hb⟩ := mem_parcelIds_iff.1 (parcel_mem_nodes.1 hm)
      rw [nodeName, nodeName, parcelName_of_parcel? ha, parcelName_of_parcel? hb] at hname
      exact congrArg _ (parcel?_inj hG ha hb hname)

/-- Arcs between a group and a parcel that are listed alike are the same. -/
theorem edgeBetween_inj (hG : G.invoice.WellFormed) (hn : n ∈ G.nodes) (hm : m ∈ G.nodes)
    (hn' : n' ∈ G.nodes) (hm' : m' ∈ G.nodes) (hturn : m.isGroup = !n.isGroup)
    (hturn' : m'.isGroup = !n'.isGroup) (h : G.edgeBetween (n, m) = G.edgeBetween (n', m')) :
    n = n' ∧ m = m' := by
  obtain ⟨hsource, hkind, htarget⟩ := Edge.mk.inj h
  have hgroup := Node.isGroup_eq_of_edgeKind hkind
  exact ⟨nodeName_inj hG hn hn' hgroup hsource,
    nodeName_inj hG hm hm' (by rw [hturn, hturn', hgroup]) htarget⟩

theorem IsEdge.mem_nodes (h : G.IsEdge n m) : n ∈ G.nodes ∧ m ∈ G.nodes :=
  (leads_iff_isEdge.2 h).mem_nodes

theorem nodup_edges (hG : G.invoice.WellFormed) : G.edges.Nodup := by
  rw [edges_eq]
  refine List.Nodup.map_on ?_ nodup_arcs
  rintro ⟨n, m⟩ harc ⟨n', m'⟩ harc' heq
  have hedge := mem_arcs.1 harc
  have hedge' := mem_arcs.1 harc'
  obtain ⟨rfl, rfl⟩ := edgeBetween_inj hG hedge.mem_nodes.1 hedge.mem_nodes.2 hedge'.mem_nodes.1
    hedge'.mem_nodes.2 hedge.isGroup hedge'.isGroup heq
  rfl

/-- A pair of a group and a parcel, in either direction, is listed when it is an edge. -/
theorem edgeBetween_mem_edges_iff (hG : G.invoice.WellFormed) (hn : n ∈ G.nodes)
    (hm : m ∈ G.nodes) (hturn : m.isGroup = !n.isGroup) :
    G.edgeBetween (n, m) ∈ G.edges ↔ G.IsEdge n m := by
  rw [edges_eq, List.mem_map]
  constructor
  · rintro ⟨⟨n', m'⟩, harc, heq⟩
    have hedge := mem_arcs.1 harc
    obtain ⟨rfl, rfl⟩ := edgeBetween_inj hG hedge.mem_nodes.1 hedge.mem_nodes.2 hn hm
      hedge.isGroup hturn heq
    exact hedge
  · intro hedge
    exact ⟨(n, m), mem_arcs.2 hedge, rfl⟩

/-- So it is listed once or not at all. -/
theorem count_edgeBetween (hG : G.invoice.WellFormed) (hn : n ∈ G.nodes) (hm : m ∈ G.nodes)
    (hturn : m.isGroup = !n.isGroup) {P : Prop} [Decidable P] (hP : m ∈ G.successors n ↔ P) :
    G.edges.count (G.edgeBetween (n, m)) = if P then 1 else 0 := by
  have hlisted : G.edgeBetween (n, m) ∈ G.edges ↔ P := by
    rw [edgeBetween_mem_edges_iff hG hn hm hturn, ← leads_iff_isEdge, Leads, hP]
  split
  · rename_i hholds
    exact List.count_eq_one_of_mem (nodup_edges hG) (hlisted.2 hholds)
  · rename_i hnot
    exact List.count_eq_zero_of_not_mem fun hmem => hnot (hlisted.1 hmem)

theorem parcel_mem_successors : .parcel p ∈ G.successors (.group g) ↔ p ∈ G.members g := by
  simp [successors]

theorem group_mem_successors : .group g ∈ G.successors (.parcel p) ↔ g ∈ G.requires p := by
  simp [successors]

end Graph

end Bindle
