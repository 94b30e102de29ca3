import Bindle.Resolution.Choice
import Bindle.Resolution.Failure
import Bindle.Resolution.Satisfaction
import Bindle.Sorted.NameSet

/-!
# Resolution runs

A run starts with the groups that are required from the outset and with nothing selected, and
repeats one pass until a pass changes nothing:

1. Every required group with the policy `allOf` pulls in all of its members.
2. If that pulled in nothing, the required groups with the policy `oneOf` are decided in order. A
   group is decided once; with a member selected already there is nothing to decide. A candidate
   is a member that no other required group of this kind is closed to; a sole candidate is taken,
   and among several the chooser is asked.
3. The groups that selected parcels require become required.

Groups with the policy `anyOf` pull in nothing. Both sets only grow, so a number of passes that is
bounded by the size of the graph suffices.

The model of the loop of the component `Resolver` in section 4.5 of `SPEC_FULL.md`.

* `Policy`, `Run`: what a run is given, and its state.
* `Run.pulled`, `Run.decide`, `Run.decideAll`, `Run.spread`, `Run.pass`: the steps.
* `Run.settle`: passes until nothing changes.
-/

namespace Bindle

/-- What the caller wants of a resolution. -/
structure Policy where
  /-- The groups to require beyond those that the invoice requires. -/
  optedIn : NameSet
  /-- How required groups with the policy `anyOf` are judged. -/
  anyOf : AnyOfReading
  deriving DecidableEq, Inhabited

/-- The declared groups that the caller opts into. -/
def Graph.optedIn (G : Graph) (policy : Policy) : List GroupId :=
  policy.optedIn.names.filterMap G.groupId?

/-- The state of a run. The lists of groups and parcels are sets: their order says nothing. -/
structure Run where
  required : List GroupId
  selection : Selection
  /-- The groups that were decided; none of them is decided again. -/
  decided : List GroupId
  /-- The errors of decisions, each with its group, in order. -/
  errors : List (GroupId × ResolutionError)
  /-- The questions asked, with their answers, in order. -/
  exchanges : List Exchange
  deriving DecidableEq

namespace Run

variable (G : Graph) (chooser : Chooser)

/-- The state in which the given groups are required and nothing has happened. -/
def start (required : List GroupId) : Run :=
  { required, selection := [], decided := [], errors := [], exchanges := [] }

/-! ## Pulling in -/

/-- Whether a required group with the policy `allOf` contains the parcel. -/
def isPulled (run : Run) (p : ParcelId) : Bool :=
  run.required.any fun g => G.policy g == .allOf && G.holds g p

/-- The parcels that are pulled in and not yet selected. -/
def pulled (run : Run) : List ParcelId :=
  G.parcelIds.filter fun p => !run.selection.contains p && run.isPulled G p

/-- The state with more parcels selected. -/
def select (run : Run) (ps : List ParcelId) : Run :=
  { run with selection := ps ++ run.selection }

/-! ## Deciding -/

/-- Whether a group has a selected member. -/
def isTaken (run : Run) (g : GroupId) : Bool :=
  (G.members g).any (run.selection.contains ·)

/-- Whether a required group accepts one parcel and has a selected member, so that it is closed to
every other parcel. -/
def isClosed (run : Run) (g : GroupId) : Bool :=
  run.required.contains g && G.policy g == .oneOf && run.isTaken G g

/-- Whether a parcel is a member of a closed group other than the given one. -/
def conflicts (run : Run) (g : GroupId) (p : ParcelId) : Bool :=
  (G.groupsOf p).any fun other => other != g && run.isClosed G other

/-- The members of a group that may be selected for it. -/
def viable (run : Run) (g : GroupId) : List ParcelId :=
  (G.members g).filter fun p => !run.conflicts G g p

/-- The state with one more error. -/
def fail (run : Run) (g : GroupId) (error : ResolutionError) : Run :=
  { run with errors := run.errors ++ [(g, error)] }

/-- Records an answer and does as it says. -/
def answer (run : Run) (g : GroupId) (q : Question) (choice : Choice) : Run :=
  let asked := { run with exchanges := run.exchanges ++ [Exchange.mk q choice] }
  match choice with
  | .skip => asked.fail g (.ambiguous q.group.text q.candidateNames)
  | .select name =>
    match q.candidate? name with
    | some candidate => asked.select [candidate.id]
    | none => asked.fail g (.invalidChoice q.group.text name)

/-- Asks which of the parcels it is for a declared group. -/
def ask (run : Run) (g : GroupId) (ps : List ParcelId) : Run :=
  match G.group? g with
  | none => run
  | some group =>
    let q := G.question group.name ps
    run.answer g q (chooser run.exchanges q)

/-- The state in which a group counts as decided. -/
def markDecided (run : Run) (g : GroupId) : Run :=
  { run with decided := g :: run.decided }

/-- Decides a group; nothing is decided while it has a selected member. -/
def decide (run : Run) (g : GroupId) : Run :=
  if run.isTaken G g then run
  else
    let marked := run.markDecided g
    match run.viable G g with
    | [] => marked.fail g (.unsatisfiable (G.groupName g))
    | [only] => marked.select [only]
    | several => marked.ask G chooser g several

/-- The required groups that accept one parcel and were not decided. -/
def pending (run : Run) : List GroupId :=
  G.groupIds.filter fun g =>
    run.required.contains g && G.policy g == .oneOf && !run.decided.contains g

/-- Decides the groups that are pending now, one after the other. -/
def decideAll (run : Run) : Run :=
  (run.pending G).foldl (·.decide G chooser) run

/-! ## Passes -/

/-- Whether a selected parcel requires the group. -/
def isCalledFor (run : Run) (g : GroupId) : Bool :=
  run.selection.any (G.needs · g)

/-- Requires the groups that selected parcels require. -/
def spread (run : Run) : Run :=
  { run with
    required := run.required ++
      G.groupIds.filter fun g => !run.required.contains g && run.isCalledFor G g }

/-- One pass: pulls in or else decides, and then requires what is called for. -/
def pass (run : Run) : Run :=
  match run.pulled G with
  | [] => (run.decideAll G chooser).spread G
  | ps => (run.select ps).spread G

/-- Whether two states of one run have equally many groups required and parcels selected. -/
def sameSize (run next : Run) : Bool :=
  next.required.length == run.required.length && next.selection.length == run.selection.length

/-- At most so many passes, until one changes neither set; or the errors, if that many do not
suffice. -/
def settle : Nat → Run → Except (List ResolutionError) Run
  | 0, run => .error (run.errors.map (·.2) ++ [.cycle (run.required.map G.groupName)])
  | fuel + 1, run =>
    let next := run.pass G chooser
    if run.sameSize next then .ok next else settle fuel next

end Run

/-- A number of passes that suffices. -/
def Graph.passLimit (G : Graph) : Nat := G.groupCount + G.parcelCount + 1

end Bindle
