import Bindle.Graph.Basic

/-!
# Cycles

A group leads to its members and a parcel to the groups that it requires. An invoice in which a
walk along these edges comes back to where it started is refused, and the message shows the walk.

The search goes depth first, groups before parcels and each in order of position. It keeps the
trail from the root of the search to the node it looks at, and the nodes that it is done with: a
node that lies on the trail closes a cycle, and a node that is done leads to none. A trail has no
node twice, so the number of nodes bounds its length.

The model of the component `CycleDetector` in section 4.3 of `SPEC_FULL.md`.

* `Graph.Node`, `Graph.successors`: the nodes of both kinds and where each leads.
* `Graph.findCycle`: the nodes of the first cycle, the first node repeated at the end.
* `Graph.build`: the graph of an invoice, if it has no cycle.
-/

namespace Bindle

namespace Graph

/-- A group or a parcel. -/
inductive Node where
  | group (id : GroupId)
  | parcel (id : ParcelId)
  deriving DecidableEq

/-- The nodes: the groups, then the parcels. -/
def nodes (G : Graph) : List Node :=
  G.groupIds.map .group ++ G.parcelIds.map .parcel

/-- The nodes that a node leads to, in order. -/
def successors (G : Graph) : Node → List Node
  | .group g => (G.members g).map .parcel
  | .parcel p => (G.requires p).map .group

/-- The name of a node. -/
def nodeName (G : Graph) : Node → String
  | .group g => G.groupName g
  | .parcel p => G.parcelName p

/-- The walk from a node of a trail along the trail and back to that node. The trail starts with
its newest node. -/
def closeCycle (node : Node) (trail : List Node) : List Node :=
  node :: (trail.takeWhile (· ≠ node)).reverse ++ [node]

/-- Visits a node at the end of a trail, with the nodes done so far: either a cycle is found, or
more nodes are done. -/
def visit (G : Graph) : Nat → List Node → List Node → Node → Except (List Node) (List Node)
  | 0, _, done, _ => .ok done
  | fuel + 1, trail, done, node =>
    if node ∈ trail then .error (closeCycle node trail)
    else if node ∈ done then .ok done
    else do
      let done ← (G.successors node).foldlM (G.visit fuel (node :: trail)) done
      return node :: done

/-- The first cycle, if there is any. -/
def findCycle (G : Graph) : Option (List Node) :=
  match G.nodes.foldlM (G.visit (G.nodes.length + 1) []) [] with
  | .ok _ => none
  | .error cycle => some cycle

/-- The names along the first cycle, if there is any. -/
def cycleNames (G : Graph) : Option (List String) :=
  G.findCycle.map fun cycle => cycle.map G.nodeName

end Graph

/-- The message on a cycle through the named nodes. -/
def cycleMessage (names : List String) : String :=
  "Dependency cycle detected: " ++ " -> ".intercalate names

/-- Why an invoice has no graph that can be resolved. -/
inductive GraphError where
  | cycle (names : List String)
  deriving DecidableEq

/-- The message of an error. -/
def GraphError.message : GraphError → String
  | .cycle names => cycleMessage names

/-- The graph of an invoice, if it has no cycle. -/
def Graph.build (invoice : Invoice) : Except GraphError Graph :=
  let G : Graph := { invoice }
  match G.cycleNames with
  | none => .ok G
  | some names => .error (.cycle names)

end Bindle
