import Bindle.Resolution.Manifest

/-!
# Outcomes of resolutions

A resolution settles a run and then judges every required group against the selection. It ends
with a manifest if nothing went wrong, and otherwise with all errors: first those of decisions,
then those of groups that the selection does not satisfy. The error of a decision that was put
off or impossible is forgiven when the group is satisfied after all; a group that already has an
error is not reported as unsatisfiable again.

A graph with a cycle is refused before anything else, and so are groups that the caller opts into
and nobody declared. An invoice that was yanked is refused too, unless the caller allows it.

The model of how the `Resolver` in section 4.5 of `SPEC_FULL.md` begins and ends, and of
`resolve_invoice` in section 4.6.

* `Run.errorsAtEnd`: all errors of a settled run.
* `Graph.settledRun`, `Graph.resolve`: the run of a graph and its outcome.
* `Invoice.resolve`: the outcome for an invoice.
-/

namespace Bindle

/-! ## Judging a settled run -/

namespace Run

variable (G : Graph) (reading : AnyOfReading)

/-- Whether a decision of the group went wrong. -/
def hasError (run : Run) (g : GroupId) : Bool :=
  run.errors.any (·.1 == g)

/-- Whether a group is required and satisfied. -/
def isSettled (run : Run) (g : GroupId) : Bool :=
  run.required.contains g && G.isSatisfied reading g true run.selection

/-- The errors of decisions that still stand. -/
def standingErrors (run : Run) : List ResolutionError :=
  (run.errors.filter fun e => !(run.isSettled G reading e.1 && e.2.isForgivable)).map (·.2)

/-- What is wrong with a required group at the end. -/
def errorAtEnd? (run : Run) (g : GroupId) : Option ResolutionError :=
  match G.evaluate reading g true run.selection with
  | .satisfied => none
  | .unsatisfied => if run.hasError g then none else some (.unsatisfiable (G.groupName g))
  | .overSatisfied =>
    some (.overSatisfied (G.groupName g) (G.parcelNames (G.selectedMembers g run.selection)))

/-- All errors of a settled run. -/
def errorsAtEnd (run : Run) : List ResolutionError :=
  run.standingErrors G reading ++
    (G.groupIds.filter (run.required.contains ·)).filterMap (run.errorAtEnd? G reading)

end Run

/-! ## Resolving a graph -/

/-- How a resolution ended, with the questions asked on the way. -/
structure Outcome (ε : Type) where
  exchanges : List Exchange
  result : Except ε Manifest

namespace Graph

/-- The errors on groups that the caller opts into and nobody declared. -/
def unknownOptIns (G : Graph) (policy : Policy) : List ResolutionError :=
  (policy.optedIn.names.filter fun name => (G.groupId? name).isNone).map .unknownGroup

/-- The groups that are required from the outset. -/
def initiallyRequired (G : Graph) (policy : Policy) : List GroupId :=
  G.groupIds.filter fun g => G.isRootRequired g || (G.optedIn policy).contains g

/-- The run of a graph, settled; or the errors that keep it from starting. -/
def settledRun (G : Graph) (policy : Policy) (chooser : Chooser) :
    Except (List ResolutionError) Run :=
  match G.cycleNames with
  | some names => .error [.cycle names]
  | none =>
    match G.unknownOptIns policy with
    | [] => (Run.start (G.initiallyRequired policy)).settle G chooser G.passLimit
    | errors => .error errors

/-- The manifest of a settled run, or its errors. -/
def conclude (G : Graph) (policy : Policy) (run : Run) : Except (List ResolutionError) Manifest :=
  match run.errorsAtEnd G policy.anyOf with
  | [] => .ok (run.manifest G policy)
  | errors => .error errors

/-- Resolves a graph. -/
def resolve (G : Graph) (policy : Policy) (chooser : Chooser) :
    Outcome (List ResolutionError) :=
  match G.settledRun policy chooser with
  | .error errors => { exchanges := [], result := .error errors }
  | .ok run => { exchanges := run.exchanges, result := G.conclude policy run }

end Graph

/-! ## Resolving an invoice -/

/-- Why an invoice was not resolved. -/
inductive ResolveError where
  | yanked (invoice : String)
  | graph (error : GraphError)
  | resolution (errors : List ResolutionError)
  deriving DecidableEq

/-- The message of an error. -/
def ResolveError.message : ResolveError → String
  | .yanked invoice => s!"Invoice '{invoice}' is yanked"
  | .graph error => error.message
  | .resolution errors => resolutionMessage errors

/-- The outcome with another kind of error. -/
def Outcome.mapError {ε δ : Type} (f : ε → δ) (o : Outcome ε) : Outcome δ where
  exchanges := o.exchanges
  result := o.result.mapError f

/-- The outcome without a question asked. -/
def Outcome.refuse {ε : Type} (error : ε) : Outcome ε where
  exchanges := []
  result := .error error

/-- Resolves an invoice. -/
def Invoice.resolve (i : Invoice) (policy : Policy) (chooser : Chooser) (allowYanked : Bool) :
    Outcome ResolveError :=
  if i.yanked ∧ ¬allowYanked then .refuse (.yanked i.name)
  else match Graph.build i with
  | .error error => .refuse (.graph error)
  | .ok G => (G.resolve policy chooser).mapError .resolution

end Bindle
