import Bindle.Graph.Cycle
import Bindle.Proofs.Graph.Declarations
import Mathlib.Data.List.Chain
import Mathlib.Logic.Relation

/-!
# The search for cycles is exact

The depth-first search answers with a cycle exactly when the graph has one. Two facts carry this
through the recursion. The trail, followed backwards from the node that is visited, is a walk, so
a node that is met again on it closes a cycle. The nodes that are done stand in an order in which
each leads only to nodes further down, so none of them lies on a cycle.

* `Leads`, `IsAcyclic`, `IsCycle`: edges, their absence of cycles, and a cycle as a list of nodes.
* `Ordered`: the order of the nodes that are done.
* `visit_finishes`: what a visit answers, by induction on the fuel, which never runs out.
* `findCycle_eq_none_iff`, `isCycle_of_findCycle`: the search as a whole.
-/

namespace Bindle.Graph

variable {G : Graph}

/-! ## Edges and cycles -/

/-- One node leads to another: a group to a member, or a parcel to a group that it requires. -/
def Leads (G : Graph) (n m : Node) : Prop :=
  m ∈ G.successors n

/-- No walk comes back to where it started. -/
def IsAcyclic (G : Graph) : Prop :=
  ∀ n, ¬Relation.TransGen G.Leads n n

/-- The nodes along a cycle that meets no node twice, the first one repeated at the end. -/
def IsCycle (G : Graph) (cycle : List Node) : Prop :=
  ∃ node path, cycle = node :: path ++ [node] ∧ cycle.IsChain G.Leads ∧ (node :: path).Nodup

theorem leads_group {g : GroupId} {n : Node} :
    G.Leads (.group g) n ↔ ∃ p, n = .parcel p ∧ G.holds g p = true := by
  simp only [Leads, successors, List.mem_map, mem_members]
  exact exists_congr fun p => by rw [and_comm, eq_comm]

theorem leads_parcel {p : ParcelId} {n : Node} :
    G.Leads (.parcel p) n ↔ ∃ g, n = .group g ∧ G.needs p g = true := by
  simp only [Leads, successors, List.mem_map, mem_requires]
  exact exists_congr fun g => by rw [and_comm, eq_comm]

theorem group_mem_nodes {g : GroupId} : .group g ∈ G.nodes ↔ g ∈ G.groupIds := by
  simp [nodes]

theorem parcel_mem_nodes {p : ParcelId} : .parcel p ∈ G.nodes ↔ p ∈ G.parcelIds := by
  simp [nodes]

theorem Leads.mem_nodes {n m : Node} (h : G.Leads n m) : n ∈ G.nodes ∧ m ∈ G.nodes := by
  cases n with
  | group g =>
    obtain ⟨p, rfl, hp⟩ := leads_group.1 h
    exact ⟨group_mem_nodes.2 (mem_groupIds_of_holds hp),
      parcel_mem_nodes.2 (mem_parcelIds_of_holds hp)⟩
  | parcel p =>
    obtain ⟨g, rfl, hg⟩ := leads_parcel.1 h
    exact ⟨parcel_mem_nodes.2 (mem_parcelIds_of_needs hg),
      group_mem_nodes.2 (mem_groupIds_of_needs hg)⟩

theorem transGen_of_isChain {α : Type} {R : α → α → Prop} {a b : α} {l : List α}
    (h : (a :: l ++ [b]).IsChain R) : Relation.TransGen R a b := by
  induction l generalizing a with
  | nil =>
    rw [List.singleton_append, List.isChain_cons_cons] at h
    exact .single h.1
  | cons c l ih =>
    rw [List.cons_append, List.cons_append, List.isChain_cons_cons] at h
    exact .head h.1 (ih h.2)

/-- A graph with a cycle is not acyclic. -/
theorem IsCycle.not_isAcyclic {cycle : List Node} (h : G.IsCycle cycle) : ¬G.IsAcyclic := by
  obtain ⟨node, path, rfl, hchain, -⟩ := h
  intro hacyclic
  exact hacyclic node (transGen_of_isChain hchain)

/-! ## Nodes that are done -/

/-- Each node leads only to nodes further down the list. -/
def Ordered (G : Graph) : List Node → Prop
  | [] => True
  | n :: rest => (∀ m, G.Leads n m → m ∈ rest) ∧ G.Ordered rest

theorem Ordered.mem_of_leads {done : List Node} (hdone : G.Ordered done) {n m : Node}
    (hn : n ∈ done) (h : G.Leads n m) : m ∈ done := by
  induction done with
  | nil => cases hn
  | cons first rest ih =>
    rcases List.mem_cons.1 hn with rfl | hn
    · exact List.mem_cons_of_mem _ (hdone.1 m h)
    · exact List.mem_cons_of_mem _ (ih hdone.2 hn)

theorem Ordered.mem_of_walk {done : List Node} (hdone : G.Ordered done) {n m : Node}
    (hn : n ∈ done) (h : Relation.ReflTransGen G.Leads n m) : m ∈ done := by
  induction h with
  | refl => exact hn
  | tail _ hstep ih => exact hdone.mem_of_leads ih hstep

/-- A node that is done lies on no cycle. -/
theorem Ordered.not_walk_back {done : List Node} (hdone : G.Ordered done) {n : Node}
    (hn : n ∈ done) : ¬Relation.TransGen G.Leads n n := by
  induction done with
  | nil => cases hn
  | cons first rest ih =>
    intro hback
    rcases List.mem_cons.1 hn with rfl | hn
    · -- the walk leaves `n` into the rest and never leaves the rest again
      obtain ⟨m, hstep, hwalk⟩ := Relation.TransGen.head'_iff.1 hback
      exact ih hdone.2 (hdone.2.mem_of_walk (hdone.1 m hstep) hwalk) hback
    · exact ih hdone.2 hn hback

/-! ## The search -/

/-- What a search that was to be done with some nodes may answer: that they are done, together
with those that were done before, or that there is a cycle. -/
def Finishes (G : Graph) (done targets : List Node) : Except (List Node) (List Node) → Prop
  | .ok done' => G.Ordered done' ∧ done ⊆ done' ∧ targets ⊆ done'
  | .error cycle => G.IsCycle cycle

theorem finishes_foldlM {search : List Node → Node → Except (List Node) (List Node)}
    {targets : List Node}
    (hsearch : ∀ node ∈ targets, ∀ done, G.Ordered done → G.Finishes done [node] (search done node))
    {done : List Node} (hdone : G.Ordered done) :
    G.Finishes done targets (targets.foldlM search done) := by
  induction targets generalizing done with
  | nil => exact ⟨hdone, List.Subset.refl _, List.nil_subset _⟩
  | cons node rest ih =>
    rw [List.foldlM_cons]
    have hfirst := hsearch node List.mem_cons_self done hdone
    cases hnode : search done node with
    | error cycle =>
      rw [hnode] at hfirst
      exact hfirst
    | ok next =>
      rw [hnode] at hfirst
      obtain ⟨hnext, hsub, hmem⟩ := hfirst
      have hrest := ih (fun n hn => hsearch n (List.mem_cons_of_mem _ hn)) hnext
      show G.Finishes done (node :: rest) (rest.foldlM search next)
      cases hfold : rest.foldlM search next with
      | error cycle =>
        rw [hfold] at hrest
        exact hrest
      | ok last =>
        rw [hfold] at hrest
        obtain ⟨hlast, hsub', hmem'⟩ := hrest
        refine ⟨hlast, List.Subset.trans hsub hsub', List.cons_subset.2 ⟨?_, hmem'⟩⟩
        exact hsub' (hmem List.mem_cons_self)

/-- A node that is met again on the trail closes a cycle. -/
theorem isCycle_closeCycle {node : Node} {trail : List Node}
    (hwalk : (node :: trail).IsChain fun a b => G.Leads b a) (htrail : trail.Nodup)
    (hmem : node ∈ trail) : G.IsCycle (closeCycle node trail) := by
  refine ⟨node, _, rfl, ?_, ?_⟩
  · -- the walk back from the node to its earlier visit, turned round
    have hsplit : trail.takeWhile (· ≠ node) ++ [node] <+: trail := by
      obtain ⟨newer, older, rfl, hnot⟩ := List.eq_append_cons_of_mem hmem
      rw [List.takeWhile_append_of_pos (fun m hm => by
        simpa using fun heq : m = node => hnot (heq ▸ hm))]
      simp
    have hback := hwalk.prefix (List.cons_prefix_cons.2 ⟨rfl, hsplit⟩)
    have hturn := List.isChain_reverse.2 hback
    simpa [closeCycle] using hturn
  · rw [List.nodup_cons, List.mem_reverse, List.nodup_reverse]
    refine ⟨fun h => ?_, htrail.sublist (List.takeWhile_sublist _)⟩
    simpa using List.all_eq_true.1 List.all_takeWhile node h

/-- What a visit answers, when the trail is a walk to the node without repetition and there is
fuel for a trail through every node. -/
theorem visit_finishes {fuel : Nat} {trail done : List Node} {node : Node}
    (hwalk : (node :: trail).IsChain fun a b => G.Leads b a) (htrail : trail.Nodup)
    (hsub : node :: trail ⊆ G.nodes) (hfuel : G.nodes.length < fuel + trail.length)
    (hdone : G.Ordered done) : G.Finishes done [node] (G.visit fuel trail done node) := by
  induction fuel generalizing trail done node with
  | zero =>
    have hlen := htrail.length_le_of_subset (List.cons_subset.1 hsub).2
    omega
  | succ fuel ih =>
    rw [visit]
    split
    · rename_i hmem
      exact isCycle_closeCycle hwalk htrail hmem
    · rename_i hmem
      split
      · rename_i hnode
        exact ⟨hdone, List.Subset.refl _, List.cons_subset.2 ⟨hnode, List.nil_subset _⟩⟩
      · have hnext : ∀ m ∈ G.successors node, ∀ acc, G.Ordered acc →
            G.Finishes acc [m] (G.visit fuel (node :: trail) acc m) := by
          intro m hm acc hacc
          refine ih (List.isChain_cons_cons.2 ⟨hm, hwalk⟩) (List.nodup_cons.2 ⟨hmem, htrail⟩)
            (List.cons_subset.2 ⟨(Leads.mem_nodes hm).2, hsub⟩) ?_ hacc
          rw [List.length_cons]
          omega
        have hfold := finishes_foldlM hnext hdone
        cases hresult : (G.successors node).foldlM (G.visit fuel (node :: trail)) done with
        | error cycle =>
          rw [hresult] at hfold
          exact hfold
        | ok last =>
          rw [hresult] at hfold
          obtain ⟨hlast, hdoneSub, hsuccessors⟩ := hfold
          refine ⟨⟨fun m hm => hsuccessors hm, hlast⟩, ?_, ?_⟩
          · exact List.Subset.trans hdoneSub (List.subset_cons_self _ _)
          · exact List.cons_subset.2 ⟨List.mem_cons_self, List.nil_subset _⟩

theorem finishes_search {targets : List Node} (htargets : targets ⊆ G.nodes) :
    G.Finishes [] targets (targets.foldlM (G.visit (G.nodes.length + 1) []) []) := by
  refine finishes_foldlM (fun node hnode done hdone => ?_) trivial
  refine visit_finishes (List.isChain_singleton _) List.nodup_nil ?_ (by simp) hdone
  exact List.cons_subset.2 ⟨htargets hnode, List.nil_subset _⟩

theorem finishes_nodes :
    G.Finishes [] G.nodes (G.nodes.foldlM (G.visit (G.nodes.length + 1) []) []) :=
  finishes_search (List.Subset.refl _)

/-- **What the search finds is a cycle.** -/
theorem isCycle_of_findCycle {cycle : List Node} (h : G.findCycle = some cycle) :
    G.IsCycle cycle := by
  have hsearch := finishes_nodes (G := G)
  unfold findCycle at h
  split at h
  · cases h
  · rename_i found hfound
    cases h
    rw [hfound] at hsearch
    exact hsearch

/-- **The search finds a cycle if there is one.** -/
theorem findCycle_eq_none_iff : G.findCycle = none ↔ G.IsAcyclic := by
  constructor
  · intro h
    have hsearch := finishes_nodes (G := G)
    unfold findCycle at h
    split at h
    · rename_i done hdone
      rw [hdone] at hsearch
      obtain ⟨hordered, -, hall⟩ := hsearch
      intro n hback
      obtain ⟨m, hstep, -⟩ := Relation.TransGen.head'_iff.1 hback
      exact hordered.not_walk_back (hall hstep.mem_nodes.1) hback
    · cases h
  · intro h
    cases hfind : G.findCycle with
    | none => rfl
    | some cycle => exact absurd h (isCycle_of_findCycle hfind).not_isAcyclic

theorem cycleNames_eq_none_iff : G.cycleNames = none ↔ G.IsAcyclic := by
  rw [cycleNames, Option.map_eq_none_iff, findCycle_eq_none_iff]

/-- An invoice has a graph exactly when nothing in it leads back to itself. -/
theorem build_eq_ok_iff {i : Invoice} :
    Graph.build i = .ok G ↔ G = { invoice := i } ∧ G.IsAcyclic := by
  unfold Graph.build
  constructor
  · intro h
    dsimp only at h
    split at h
    · rename_i hnone
      cases h
      exact ⟨rfl, cycleNames_eq_none_iff.1 hnone⟩
    · cases h
  · rintro ⟨rfl, hacyclic⟩
    dsimp only
    rw [cycleNames_eq_none_iff.2 hacyclic]

theorem wellFormed_of_build {i : Invoice} (hi : i.IsValid) (hG : Graph.build i = .ok G) :
    G.invoice.WellFormed := by
  rw [(build_eq_ok_iff.1 hG).1]
  exact hi.wellFormed

end Bindle.Graph

namespace Bindle.Worked

/-- The graph of the worked scenario, which has no cycle. -/
def graph : Graph := ⟨invoice⟩

theorem build_eq : Graph.build invoice = .ok graph := by decide +kernel

end Bindle.Worked
