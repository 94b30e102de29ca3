import Bindle.Proofs.Graph.Acyclicity

/-!
# The cycle that is shown

Whoever reads the message on a cycle sees names in a row and knows the declarations of the
invoice. Said in these terms, the search is exact: there is a message when the declarations lead
from some node back to it, and the names are those of one such round trip. It passes no node
twice, groups and parcels take turns on it, and the global group is never on it, because nothing
leads there.

* `IsEdge`: where a node leads, by the declarations; `leads_iff_isEdge` says that the search goes
  along these edges.
* `IsRoundTrip`: what is promised of the nodes that are shown.
* `isRoundTrip_of_findCycle`: the search keeps the promise.
* `findCycleIf`: the search behind a test; an exact test changes nothing.
* `cycleNames_exact`: the message as a whole.
-/

namespace Bindle.Graph

variable {G : Graph} {n m : Node}

/-! ## Edges as declared -/

/-- Where the declarations lead: from a declared group to the parcels that list it, from the
global group to those without a list, and from a parcel to the declared groups it requires. -/
inductive IsEdge (G : Graph) : Node → Node → Prop
  | listed {g : GroupId} {group : Group} {p : ParcelId} {parcel : Parcel}
      (hg : G.group? g = some group) (hp : G.parcel? p = some parcel)
      (hlists : parcel.Lists group.name) : IsEdge G (.group g) (.parcel p)
  | unlisted {p : ParcelId} {parcel : Parcel} (hp : G.parcel? p = some parcel)
      (hnone : parcel.memberOf = none) : IsEdge G (.group .global) (.parcel p)
  | required {p : ParcelId} {parcel : Parcel} {g : GroupId} {group : Group}
      (hp : G.parcel? p = some parcel) (hg : G.group? g = some group)
      (hrequires : .named group.name ∈ parcel.requires) : IsEdge G (.parcel p) (.group g)

/-- Whether the node is a group. -/
def Node.isGroup : Node → Bool
  | .group _ => true
  | .parcel _ => false

theorem leads_iff_isEdge : G.Leads n m ↔ G.IsEdge n m := by
  constructor
  · intro h
    cases n with
    | group g =>
      obtain ⟨p, rfl, hholds⟩ := leads_group.1 h
      obtain ⟨parcel, hp, ⟨rfl, hnone⟩ | ⟨group, hg, hlists⟩⟩ := holds_iff.1 hholds
      · exact .unlisted hp hnone
      · exact .listed hg hp hlists
    | parcel p =>
      obtain ⟨g, rfl, hneeds⟩ := leads_parcel.1 h
      obtain ⟨parcel, hp, group, hg, hrequires⟩ := needs_iff.1 hneeds
      exact .required hp hg hrequires
  · intro h
    cases h with
    | listed hg hp hlists =>
      exact leads_group.2 ⟨_, rfl, holds_iff.2 ⟨_, hp, .inr ⟨_, hg, hlists⟩⟩⟩
    | unlisted hp hnone =>
      exact leads_group.2 ⟨_, rfl, holds_iff.2 ⟨_, hp, .inl ⟨rfl, hnone⟩⟩⟩
    | required hp hg hrequires =>
      exact leads_parcel.2 ⟨_, rfl, needs_iff.2 ⟨_, hp, _, hg, hrequires⟩⟩

theorem leads_eq_isEdge : G.Leads = G.IsEdge := by
  funext n m
  exact propext leads_iff_isEdge

/-- Groups and parcels take turns. -/
theorem IsEdge.isGroup (h : G.IsEdge n m) : m.isGroup = !n.isGroup := by
  cases h with
  | listed _ _ _ => rfl
  | unlisted _ _ => rfl
  | required _ _ _ => rfl

/-- Nothing leads to the global group: a parcel may require it, but that says nothing. -/
theorem IsEdge.ne_global (h : G.IsEdge n m) : m ≠ .group .global := by
  cases h with
  | listed _ _ _ => exact Node.noConfusion
  | unlisted _ _ => exact Node.noConfusion
  | required _ hg _ =>
    intro heq
    rw [Node.group.inj heq, group?_global] at hg
    cases hg

/-! ## Round trips -/

/-- From the first node along a path and back to it, by the edges that are declared. -/
structure IsRoundTrip (G : Graph) (first : Node) (path : List Node) : Prop where
  edges : (first :: path ++ [first]).IsChain G.IsEdge
  takeTurns : (first :: path ++ [first]).IsChain fun a b => b.isGroup = !a.isGroup
  nodup : (first :: path).Nodup
  not_global : .group .global ∉ first :: path

theorem exists_of_mem_isChain {α : Type} {R : α → α → Prop} {a b : α} {l : List α}
    (h : (a :: l).IsChain R) (hb : b ∈ l) : ∃ c, R c b := by
  induction l generalizing a with
  | nil => cases hb
  | cons c l ih =>
    rw [List.isChain_cons_cons] at h
    rcases List.mem_cons.1 hb with rfl | hb
    · exact ⟨a, h.1⟩
    · exact ih h.2 hb

/-- A cycle that meets no node twice is a round trip. Each node on it is led to by another one,
the first node by the last. -/
theorem IsCycle.exists_isRoundTrip {cycle : List Node} (h : G.IsCycle cycle) :
    ∃ first path, cycle = first :: path ++ [first] ∧ G.IsRoundTrip first path := by
  obtain ⟨first, path, rfl, hchain, hnodup⟩ := h
  rw [leads_eq_isEdge] at hchain
  refine ⟨first, path, rfl, hchain, hchain.imp fun _ _ hedge => hedge.isGroup, hnodup, ?_⟩
  intro hglobal
  have hled : .group .global ∈ path ++ [first] := by
    rcases List.mem_cons.1 hglobal with hfirst | hpath
    · exact List.mem_append_right _ (List.mem_singleton.2 hfirst)
    · exact List.mem_append_left _ hpath
  obtain ⟨n, hedge⟩ := exists_of_mem_isChain hchain hled
  exact hedge.ne_global rfl

theorem isRoundTrip_of_findCycle {cycle : List Node} (h : G.findCycle = some cycle) :
    ∃ first path, cycle = first :: path ++ [first] ∧ G.IsRoundTrip first path :=
  (isCycle_of_findCycle h).exists_isRoundTrip

/-- The search finds something exactly when some node leads back to itself. -/
theorem findCycle_isSome_iff :
    G.findCycle.isSome = true ↔ ∃ n, Relation.TransGen G.IsEdge n n := by
  rw [Option.isSome_iff_ne_none, ne_eq, findCycle_eq_none_iff, IsAcyclic, leads_eq_isEdge]
  simp only [not_forall, not_not]

/-! ## Tests beforehand -/

/-- The search, made only if a test says that there is a cycle. -/
def findCycleIf (test : Graph → Bool) (G : Graph) : Option (List Node) :=
  if test G then G.findCycle else none

/-- A test that is right about the graph does not change what is found. -/
theorem findCycleIf_eq {test : Graph → Bool}
    (htest : test G = true ↔ ∃ n, Relation.TransGen G.IsEdge n n) :
    G.findCycleIf test = G.findCycle := by
  unfold findCycleIf
  split
  · rfl
  · rename_i hnone
    rw [htest, ← findCycle_isSome_iff, Option.not_isSome_iff_eq_none] at hnone
    exact hnone.symm

/-! ## The message -/

theorem build_eq_cycle_iff {i : Invoice} {names : List String} :
    Graph.build i = .error (.cycle names) ↔ ({ invoice := i } : Graph).cycleNames = some names := by
  unfold Graph.build
  dsimp only
  cases ({ invoice := i } : Graph).cycleNames with
  | none => simp
  | some found => simp

/-- **The message on a cycle is exact.** An invoice is refused for a cycle if and only if its
declarations lead from some node back to it; the names shown are those of the nodes on one round
trip, from its first node to the same node again. A test beforehand that is right about cycles
changes nothing. -/
theorem cycleNames_exact (i : Invoice) :
    let G : Graph := { invoice := i }
    ((∃ names, G.cycleNames = some names) ↔ ∃ n, Relation.TransGen G.IsEdge n n) ∧
      (∀ names, Graph.build i = .error (.cycle names) ↔ G.cycleNames = some names) ∧
      (∀ names, G.cycleNames = some names → ∃ first path,
        names = (first :: path ++ [first]).map G.nodeName ∧ G.IsRoundTrip first path) ∧
      ∀ test : Graph → Bool,
        (∀ H : Graph, test H = true ↔ ∃ n, Relation.TransGen H.IsEdge n n) →
        (G.findCycleIf test).map (·.map G.nodeName) = G.cycleNames := by
  intro G
  refine ⟨?_, fun names => build_eq_cycle_iff, fun names hnames => ?_, fun test htest => ?_⟩
  · rw [← findCycle_isSome_iff, ← Option.isSome_iff_exists, cycleNames, Option.isSome_map]
  · obtain ⟨cycle, hcycle, rfl⟩ := Option.map_eq_some_iff.1 hnames
    obtain ⟨first, path, rfl, htrip⟩ := isRoundTrip_of_findCycle hcycle
    exact ⟨first, path, rfl, htrip⟩
  · rw [findCycleIf_eq (htest G), cycleNames]

end Bindle.Graph

namespace Bindle.Worked

/-- The worked scenario with a utility that needs the server back: the server leads to its parcel,
the parcel to the utilities, and the utility to the server. -/
def circular : Invoice :=
  { invoice with
    parcels := invoice.parcels ++ [⟨label "monitor", some [utility], [.named server]⟩] }

theorem isValid_circular : circular.IsValid := ⟨circular.toDraft, by decide +kernel⟩

theorem circular_leads_back :
    circular.IsValid ∧ (∃ n, Relation.TransGen (Graph.IsEdge ⟨circular⟩) n n) ∧
      (Graph.findCycleIf (fun G => G.findCycle.isSome) ⟨circular⟩).map
          (·.map (Graph.nodeName ⟨circular⟩)) =
        some ["server", "daemon", "utility", "monitor", "server"] := by
  have hshown : Graph.cycleNames ⟨circular⟩ =
      some ["server", "daemon", "utility", "monitor", "server"] := by decide +kernel
  obtain ⟨hiff, -, -, htest⟩ := Graph.cycleNames_exact circular
  exact ⟨isValid_circular, hiff.1 ⟨_, hshown⟩,
    (htest _ fun _ => Graph.findCycle_isSome_iff).trans hshown⟩

end Bindle.Worked
