import Bindle.Proofs.Graph.Acyclicity
import Bindle.Proofs.Graph.Flags
import Mathlib.Data.List.Sort

/-!
# Parcels at other places

What a position says of a group depends on the groups of an invoice alone; what it says of a parcel
depends on where the parcel stands. Two graphs over the same groups are compared by saying at which
place of the one each parcel of the other stands. Other parcels may stand between them, as long as
no group that matters has such a parcel as a member: the members of these groups are then the same,
one by one and in the same order.

* `Relocates`: the parcels of one graph stand at these places of another.
* `Relocates.filter_parcelIds`: a list of parcels that leaves out all others is the same list at
  other places.
* `Relocates.members`, `Relocates.requires`: so are the members of the groups that matter, and
  what a parcel requires is the same.
-/

namespace Bindle.Graph

variable {G H : Graph} {place : ParcelId → ParcelId} {matters : GroupId → Prop} {g : GroupId}
  {p q : ParcelId}

/-! ## The same groups -/

section SameGroups

variable (hgroups : G.invoice.groups = H.invoice.groups)

include hgroups

theorem shapes_congr : G.invoice.groups.map Group.shape = H.invoice.groups.map Group.shape := by
  rw [hgroups]

theorem group?_congr : G.group? = H.group? := by
  funext g
  rw [group?, group?, hgroups]

theorem isRootRequired_congr : G.isRootRequired = H.isRootRequired := by
  funext g
  rw [isRootRequired, isRootRequired, group?_congr hgroups]

end SameGroups

/-! ## Places -/

/-- The parcels of `H` stand at these places of `G`, in the same order. They have the same labels
and requirements there, and the groups that matter have them as members, and no other parcel. -/
structure Relocates (H G : Graph) (place : ParcelId → ParcelId) (matters : GroupId → Prop) :
    Prop where
  groups : G.invoice.groups = H.invoice.groups
  increasing : ∀ p q : ParcelId, p.index < q.index → (place p).index < (place q).index
  label : ∀ p, (G.parcel? (place p)).map (·.label) = (H.parcel? p).map (·.label)
  needs : ∀ p g, G.needs (place p) g = H.needs p g
  holds : ∀ g p, matters g → G.holds g (place p) = H.holds g p
  placed : ∀ g p, matters g → G.holds g p = true → ∃ q, place q = p

namespace Relocates

variable (h : Relocates H G place matters)

include h

theorem shapes : G.invoice.groups.map Group.shape = H.invoice.groups.map Group.shape :=
  shapes_congr h.groups

theorem place_inj : place p = place q ↔ p = q := by
  refine ⟨fun heq => ?_, congrArg place⟩
  have hpq := h.increasing p q
  have hqp := h.increasing q p
  rw [heq] at hpq hqp
  have hindex : p.index = q.index := by omega
  exact congrArg ParcelId.mk hindex

theorem mem_map_place {ps : List ParcelId} : place p ∈ ps.map place ↔ p ∈ ps :=
  List.mem_map_of_injective fun _ _ => h.place_inj.1

theorem mem_parcelIds : place p ∈ G.parcelIds ↔ p ∈ H.parcelIds := by
  have hsome := congrArg Option.isSome (h.label p)
  rw [Option.isSome_map, Option.isSome_map] at hsome
  rw [mem_parcelIds_iff, mem_parcelIds_iff, ← Option.isSome_iff_exists,
    ← Option.isSome_iff_exists, hsome]

theorem parcelName : G.parcelName (place p) = H.parcelName p := by
  have hname := congrArg (Option.map (·.name)) (h.label p)
  rw [Option.map_map, Option.map_map] at hname
  exact congrArg (·.getD "") hname

theorem parcelNames (ps : List ParcelId) : G.parcelNames (ps.map place) = H.parcelNames ps := by
  rw [Graph.parcelNames, Graph.parcelNames, List.map_map]
  exact List.map_congr_left fun p _ => h.parcelName

/-! ## Lists of parcels -/

/-- Parcels of which only those that were placed remain are those of the other graph: both lists
are in order. -/
theorem filter_parcelIds {f : ParcelId → Bool} (hf : ∀ p, f p = true → ∃ q, place q = p) :
    G.parcelIds.filter f = (H.parcelIds.filter (f ∘ place)).map place := by
  let before : ParcelId → ParcelId → Prop := fun p q => p.index < q.index
  have : Std.Irrefl before := ⟨fun p => Nat.lt_irrefl p.index⟩
  have : Std.Antisymm before := ⟨fun _ _ hlt hgt => absurd hgt (Nat.lt_asymm hlt)⟩
  have hleft : (G.parcelIds.filter f).Pairwise before := pairwise_parcelIds.filter f
  have hright : ((H.parcelIds.filter (f ∘ place)).map place).Pairwise before := by
    rw [List.pairwise_map]
    exact (pairwise_parcelIds.filter _).imp fun {p q} => h.increasing p q
  refine hleft.eq_of_mem_iff hright fun p => ?_
  rw [List.mem_filter, List.mem_map]
  constructor
  · rintro ⟨hp, hkept⟩
    obtain ⟨q, rfl⟩ := hf p hkept
    exact ⟨q, List.mem_filter.2 ⟨h.mem_parcelIds.1 hp, hkept⟩, rfl⟩
  · rintro ⟨q, hq, rfl⟩
    obtain ⟨hq, hkept⟩ := List.mem_filter.1 hq
    exact ⟨h.mem_parcelIds.2 hq, hkept⟩

theorem members (hg : matters g) : G.members g = (H.members g).map place := by
  rw [members_eq_filter, members_eq_filter, h.filter_parcelIds fun p => h.placed g p hg]
  refine congrArg _ (List.filter_congr fun p _ => ?_)
  exact h.holds g p hg

theorem requires : G.requires (place p) = H.requires p := by
  rw [Graph.requires, Graph.requires, groupIds_congr h.shapes]
  exact List.filter_congr fun g _ => h.needs p g

/-- There are at least as many parcels where others may stand between them. -/
theorem parcelCount_le : H.parcelCount ≤ G.parcelCount := by
  have hnodup : (H.parcelIds.map place).Nodup :=
    nodup_parcelIds.map fun _ _ => h.place_inj.1
  have hsub : H.parcelIds.map place ⊆ G.parcelIds := by
    intro p hp
    obtain ⟨q, hq, rfl⟩ := List.mem_map.1 hp
    exact h.mem_parcelIds.2 hq
  have hlen := hnodup.length_le_of_subset hsub
  rwa [List.length_map, length_parcelIds, length_parcelIds] at hlen

end Relocates

/-! ## The search for cycles -/

/-- Every cycle goes through a group, so the search that starts at groups finds the first one. -/
theorem findCycle_eq_groups :
    G.findCycle =
      match (G.groupIds.map .group).foldlM (G.visit (G.nodes.length + 1) []) [] with
      | .ok _ => none
      | .error cycle => some cycle := by
  have hgroups : G.groupIds.map .group ⊆ G.nodes := List.subset_append_left _ _
  have hsearch := finishes_search hgroups
  cases hfound : (G.groupIds.map .group).foldlM (G.visit (G.nodes.length + 1) []) [] with
  | error cycle =>
    have hnodes : G.nodes.foldlM (G.visit (G.nodes.length + 1) []) [] = .error cycle := by
      generalize G.nodes.length + 1 = fuel at hfound
      rw [nodes, List.foldlM_append, hfound]
      rfl
    rw [findCycle, hnodes]
  | ok done =>
    rw [hfound] at hsearch
    obtain ⟨hordered, -, hall⟩ := hsearch
    refine findCycle_eq_none_iff.2 fun n hback => ?_
    obtain ⟨m, hstep, hwalk⟩ := Relation.TransGen.head'_iff.1 hback
    cases n with
    | group g =>
      have hg := group_mem_nodes.1 hstep.mem_nodes.1
      exact hordered.not_walk_back (hall (List.mem_map_of_mem hg)) hback
    | parcel p =>
      -- the walk goes round from the group that it comes to first
      obtain ⟨g, rfl, -⟩ := leads_parcel.1 hstep
      have hg := group_mem_nodes.1 hstep.mem_nodes.2
      exact hordered.not_walk_back (hall (List.mem_map_of_mem hg)) (.tail' hwalk hstep)

/-- The node at its other place. -/
def Node.relocate (place : ParcelId → ParcelId) : Node → Node
  | .group g => .group g
  | .parcel p => .parcel (place p)

/-- What a search answers, with nodes at other places. -/
def relocateAnswer (place : ParcelId → ParcelId) :
    Except (List Node) (List Node) → Except (List Node) (List Node)
  | .ok done => .ok (done.map (·.relocate place))
  | .error cycle => .error (cycle.map (·.relocate place))

theorem foldlM_relocate {search search' : List Node → Node → Except (List Node) (List Node)}
    {targets : List Node}
    (hsearch : ∀ node ∈ targets, ∀ done, search' (done.map (·.relocate place))
      (node.relocate place) = relocateAnswer place (search done node)) (done : List Node) :
    (targets.map (·.relocate place)).foldlM search' (done.map (·.relocate place)) =
      relocateAnswer place (targets.foldlM search done) := by
  induction targets generalizing done with
  | nil => rfl
  | cons node rest ih =>
    rw [List.map_cons, List.foldlM_cons, List.foldlM_cons, hsearch node List.mem_cons_self]
    cases search done node with
    | error cycle => rfl
    | ok next => exact ih (fun n hn => hsearch n (List.mem_cons_of_mem _ hn)) next

namespace Relocates

variable (h : Relocates H G place matters)

include h

theorem node_inj {n m : Node} : n.relocate place = m.relocate place ↔ n = m := by
  refine ⟨fun heq => ?_, congrArg _⟩
  cases n with
  | group g =>
    cases m with
    | group g' => exact heq
    | parcel q => cases heq
  | parcel p =>
    cases m with
    | group g' => cases heq
    | parcel q => exact congrArg _ (h.place_inj.1 (Node.parcel.inj heq))

theorem mem_map_node {n : Node} {ns : List Node} :
    n.relocate place ∈ ns.map (·.relocate place) ↔ n ∈ ns :=
  List.mem_map_of_injective fun _ _ => h.node_inj.1

theorem nodeName (n : Node) : G.nodeName (n.relocate place) = H.nodeName n := by
  cases n with
  | group g => exact congrFun (groupName_congr h.shapes) g
  | parcel p => exact h.parcelName

theorem closeCycle (n : Node) (trail : List Node) :
    closeCycle (n.relocate place) (trail.map (·.relocate place)) =
      (closeCycle n trail).map (·.relocate place) := by
  have hbefore : ((fun m => decide (m ≠ n.relocate place)) ∘ fun m : Node => m.relocate place) =
      fun m => decide (m ≠ n) :=
    funext fun m => decide_eq_decide.2 (not_congr h.node_inj)
  rw [Graph.closeCycle, Graph.closeCycle, List.takeWhile_map, hbefore]
  simp

variable (hall : ∀ g, matters g)

include hall

theorem successors (n : Node) :
    G.successors (n.relocate place) = (H.successors n).map (·.relocate place) := by
  cases n with
  | group g =>
    show (G.members g).map Node.parcel = ((H.members g).map Node.parcel).map (·.relocate place)
    rw [h.members (hall g), List.map_map, List.map_map]
    rfl
  | parcel p =>
    show (G.requires (place p)).map Node.group =
      ((H.requires p).map Node.group).map (·.relocate place)
    rw [h.requires, List.map_map]
    rfl

/-- A visit answers the same, with nodes at other places, as soon as there is fuel in both graphs
for a trail through the nodes of `H`. -/
theorem visit {fuel fuel' : Nat} {trail done : List Node} {node : Node} (htrail : trail.Nodup)
    (hsub : node :: trail ⊆ H.nodes) (hfuel : H.nodes.length < fuel + trail.length)
    (hfuel' : H.nodes.length < fuel' + trail.length) :
    G.visit fuel' (trail.map (·.relocate place)) (done.map (·.relocate place))
      (node.relocate place) = relocateAnswer place (H.visit fuel trail done node) := by
  have hlen := htrail.length_le_of_subset (List.cons_subset.1 hsub).2
  induction fuel generalizing fuel' trail done node with
  | zero => omega
  | succ fuel ih =>
    cases fuel' with
    | zero => omega
    | succ fuel' =>
      rw [Graph.visit, Graph.visit]
      simp only [h.mem_map_node, h.closeCycle, h.successors hall]
      split
      · rfl
      · rename_i hmem
        split
        · rfl
        · have hnext : ∀ m ∈ H.successors node, ∀ acc,
              G.visit fuel' ((node :: trail).map (·.relocate place)) (acc.map (·.relocate place))
                (m.relocate place) =
                relocateAnswer place (H.visit fuel (node :: trail) acc m) := by
            intro m hm acc
            have htrail' := List.nodup_cons.2 ⟨hmem, htrail⟩
            refine ih htrail' (List.cons_subset.2 ⟨(Leads.mem_nodes hm).2, hsub⟩) ?_ ?_
              (htrail'.length_le_of_subset hsub)
            · rw [List.length_cons]
              omega
            · rw [List.length_cons]
              omega
          have hfold := foldlM_relocate hnext done
          rw [List.map_cons] at hfold
          rw [hfold]
          cases (H.successors node).foldlM (H.visit fuel (node :: trail)) done with
          | error cycle => rfl
          | ok last => rfl

/-- **The search finds the same cycle**, with nodes at other places. -/
theorem findCycle : G.findCycle = H.findCycle.map (·.map (·.relocate place)) := by
  have hlength : H.nodes.length ≤ G.nodes.length := by
    rw [nodes, nodes, List.length_append, List.length_append, List.length_map, List.length_map,
      List.length_map, List.length_map, length_parcelIds, length_parcelIds,
      groupIds_congr h.shapes]
    exact Nat.add_le_add_left h.parcelCount_le _
  have hvisit : ∀ node ∈ H.groupIds.map Node.group, ∀ done,
      G.visit (G.nodes.length + 1) [] (done.map (·.relocate place)) (node.relocate place) =
        relocateAnswer place (H.visit (H.nodes.length + 1) [] done node) := by
    intro node hnode done
    refine h.visit hall List.nodup_nil ?_ (by simp) ?_
    · exact List.cons_subset.2 ⟨List.mem_append_left _ hnode, List.nil_subset _⟩
    · exact Nat.lt_succ_of_le hlength
  have hsearch := foldlM_relocate hvisit []
  have hgroups : (H.groupIds.map Node.group).map (·.relocate place) = G.groupIds.map .group := by
    rw [List.map_map, groupIds_congr h.shapes]
    rfl
  rw [hgroups, List.map_nil] at hsearch
  rw [findCycle_eq_groups, findCycle_eq_groups, hsearch]
  cases (H.groupIds.map Node.group).foldlM (H.visit (H.nodes.length + 1) []) [] with
  | error cycle => rfl
  | ok done => rfl

/-- So the names along it are the same. -/
theorem cycleNames : G.cycleNames = H.cycleNames := by
  rw [Graph.cycleNames, Graph.cycleNames, h.findCycle hall, Option.map_map]
  refine congrArg (Option.map · H.findCycle) (funext fun cycle => ?_)
  rw [Function.comp_apply, List.map_map]
  exact List.map_congr_left fun n _ => h.nodeName n

end Relocates

end Bindle.Graph
