import Bindle.Graph.Basic

/-!
# Choices between alternatives

Where a group accepts one parcel and several could be it, nobody guesses: a question names the
group and the candidates, and a chooser answers it. A chooser sees the questions asked before and
its own answers, so it may change its mind over a run, but what it answers depends on nothing
else.

The model of `Chooser`, `ChoiceMap` and the other choosers in section 4.5 of `SPEC_FULL.md`.

* `Question`, `Choice`, `Exchange`: what is asked, what is answered, and both together.
* `Chooser`: how questions are answered.
* `ChoiceMap`: answers recorded in advance, by group.
-/

namespace Bindle

/-- A parcel that may be chosen. -/
structure Candidate where
  id : ParcelId
  label : Label
  deriving DecidableEq

/-- The name of the candidate. -/
def Candidate.name (c : Candidate) : String := c.label.name

/-- A question: which of the candidates is it, for this group? -/
structure Question where
  group : GroupName
  candidates : List Candidate
  deriving DecidableEq

/-- The question which of the parcels it is for a group. -/
def Graph.question (G : Graph) (group : GroupName) (ps : List ParcelId) : Question where
  group := group
  candidates := ps.filterMap fun p =>
    (G.parcel? p).map fun parcel => { id := p, label := parcel.label }

/-- The candidate of that name. -/
def Question.candidate? (q : Question) (name : String) : Option Candidate :=
  q.candidates.find? (·.name == name)

/-- The names of the candidates. -/
def Question.candidateNames (q : Question) : List String :=
  q.candidates.map (·.name)

/-- An answer. -/
inductive Choice where
  /-- The candidate of that name. -/
  | select (name : String)
  /-- No candidate for now. -/
  | skip
  deriving DecidableEq

/-- The answer with the given name, if there is one. -/
def Choice.ofOption : Option String → Choice
  | none => .skip
  | some name => .select name

/-- The name that an answer gives. -/
def Choice.name? : Choice → Option String
  | .skip => none
  | .select name => some name

/-- A question and its answer. -/
structure Exchange where
  question : Question
  answer : Choice
  deriving DecidableEq

/-! ## Choosers -/

/-- The answer to a question, after the exchanges so far. -/
abbrev Chooser := List Exchange → Question → Choice

namespace Chooser

/-- Answers no question. -/
def skipAll : Chooser := fun _ _ => .skip

/-- Takes the first candidate. -/
def takeFirst : Chooser := fun _ q => .ofOption q.candidateNames.head?

/-- Takes the last candidate. -/
def takeLast : Chooser := fun _ q => .ofOption q.candidateNames.getLast?

/-- Answers one question after the other as listed, and no question after that. -/
def inOrder (answers : List (Option String)) : Chooser := fun earlier _ =>
  .ofOption ((answers[earlier.length]?).bind id)

end Chooser

/-- Answers recorded in advance: the name of a parcel for the name of a group. -/
abbrev ChoiceMap := StringMap String

/-- The chooser that goes by the record, and skips a group without an entry. -/
def ChoiceMap.chooser (m : ChoiceMap) : Chooser := fun _ q =>
  .ofOption (m.get? q.group.text)

end Bindle
