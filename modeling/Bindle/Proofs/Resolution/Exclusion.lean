import Bindle.Proofs.Graph.Exclusion
import Bindle.Proofs.Resolution.Relocation

/-!
# Excluded parcels are inert

A parcel that took itself out of every group is never a candidate and never selected, so what it
requires is never called for; and since nothing leads to it, it lies on no cycle. Without these
parcels an invoice is resolved in the same way: only the positions of the others change, which no
manifest and no error shows.

A chooser is given the positions, and could answer by them. One that goes by the names in a
question, and by those in the questions before it, gives the same answers.

* `Exchange.named`: what of a question and its answer does not depend on positions.
* `Chooser.IsByName`: the chooser goes by names; the choosers that come with the program do.
* `Invoice.resolve_withoutExcluded`: the outcome is the same without the excluded parcels.
-/

namespace Bindle

/-! ## Choosers that go by names -/

/-- An exchange by names: the group, the candidates and the answer. -/
structure NamedExchange where
  group : GroupName
  candidates : List String
  answer : Choice
  deriving DecidableEq

/-- The exchange by names. -/
def Exchange.named (e : Exchange) : NamedExchange where
  group := e.question.group
  candidates := e.question.candidateNames
  answer := e.answer

/-- The answer depends on the names in the question, and on those in earlier exchanges. -/
def Chooser.IsByName (chooser : Chooser) : Prop :=
  ∀ earlier earlier' q q', earlier.map Exchange.named = earlier'.map Exchange.named →
    q.group = q'.group → q.candidateNames = q'.candidateNames →
    chooser earlier q = chooser earlier' q'

namespace Chooser

theorem isByName_skipAll : skipAll.IsByName :=
  fun _ _ _ _ _ _ _ => rfl

theorem isByName_takeFirst : takeFirst.IsByName := by
  intro _ _ q q' _ _ hnames
  rw [takeFirst, takeFirst, hnames]

theorem isByName_takeLast : takeLast.IsByName := by
  intro _ _ q q' _ _ hnames
  rw [takeLast, takeLast, hnames]

/-- Answers that are listed in advance count the questions before and look at none. -/
theorem isByName_inOrder (answers : List (Option String)) : (inOrder answers).IsByName := by
  intro earlier earlier' q q' hearlier _ _
  have hlen := congrArg List.length hearlier
  rw [List.length_map, List.length_map] at hlen
  rw [inOrder, inOrder, hlen]

end Chooser

theorem ChoiceMap.isByName_chooser (m : ChoiceMap) : m.chooser.IsByName := by
  intro _ _ q q' _ hgroup _
  rw [ChoiceMap.chooser, ChoiceMap.chooser, hgroup]

section

variable {place : ParcelId → ParcelId}

theorem Exchange.named_relocate (e : Exchange) : (e.relocate place).named = e.named := by
  rw [named, relocate, named, Question.candidateNames_relocate]
  rfl

theorem Exchange.map_named_relocate (es : List Exchange) :
    (es.map (·.relocate place)).map Exchange.named = es.map Exchange.named := by
  rw [List.map_map]
  exact List.map_congr_left fun e _ => e.named_relocate

/-- Names are the same at other places, so the answers are. -/
theorem Chooser.IsByName.repeats {chooser : Chooser} (h : chooser.IsByName) :
    chooser.Repeats place chooser :=
  fun earlier q => h _ _ _ _ (Exchange.map_named_relocate earlier) rfl q.candidateNames_relocate

end

/-! ## Resolving without excluded parcels -/

/-- **Excluded parcels are inert.** Without them a valid invoice is still valid, and it is resolved
with the same manifest or the same errors, the same cycle among them; and a chooser that goes by
names is asked the same, by names, in the same order. -/
theorem Invoice.resolve_withoutExcluded {i : Invoice} (hi : i.IsValid) {chooser : Chooser}
    (hnames : chooser.IsByName) (policy : Policy) (allowYanked : Bool) :
    i.withoutExcluded.IsValid ∧
      (i.withoutExcluded.resolve policy chooser allowYanked).result =
        (i.resolve policy chooser allowYanked).result ∧
      (i.withoutExcluded.resolve policy chooser allowYanked).exchanges.map Exchange.named =
        (i.resolve policy chooser allowYanked).exchanges.map Exchange.named := by
  obtain ⟨place, hplace⟩ := Graph.exists_relocates_withoutExcluded hi.wellFormed
  have hall : ∀ _ : GroupId, True := fun _ => trivial
  have hcycle := hplace.cycleNames hall
  obtain ⟨hexchanges, hresult⟩ := hplace.resolve hall rfl hnames.repeats policy
  refine ⟨hi.withoutExcluded, ?_⟩
  unfold Invoice.resolve Graph.build
  dsimp only
  rw [hcycle]
  by_cases hrefused : i.yanked ∧ ¬allowYanked
  · have hrefused' : i.withoutExcluded.yanked ∧ ¬allowYanked := hrefused
    rw [if_pos hrefused, if_pos hrefused']
    exact ⟨rfl, rfl⟩
  · have hallowed : ¬(i.withoutExcluded.yanked ∧ ¬allowYanked) := hrefused
    rw [if_neg hrefused, if_neg hallowed]
    cases Graph.cycleNames { invoice := i.withoutExcluded } with
    | some names => exact ⟨rfl, rfl⟩
    | none =>
      refine ⟨congrArg (Except.mapError ResolveError.resolution) hresult.symm, ?_⟩
      show _ = (Graph.resolve { invoice := i } policy chooser).exchanges.map Exchange.named
      rw [hexchanges, Exchange.map_named_relocate]
      rfl

namespace Worked

/-- The worked scenario after a parcel that is no longer in any group. It stands before the others
and still requires the server. -/
def retiring : Invoice :=
  { invoice with parcels := ⟨label "retired", some [], [.named server]⟩ :: invoice.parcels }

theorem isValid_retiring : retiring.IsValid := ⟨retiring.toDraft, by decide +kernel⟩

/-- Without the retired parcel, and the hidden one, the same tools are asked for and the first one
is taken. -/
theorem resolve_retiring :
    retiring.IsValid ∧ Chooser.takeFirst.IsByName ∧
      retiring.withoutExcluded.parcels.map (·.name) =
        ["daemon", "first", "second", "third", "readme"] ∧
      (retiring.withoutExcluded.resolve policy .takeFirst false).result =
        (retiring.resolve policy .takeFirst false).result ∧
      (retiring.resolve policy .takeFirst false).exchanges.map Exchange.named =
        [⟨cli, ["first", "second"], .select "first"⟩] := by
  obtain ⟨-, hresult, hexchanges⟩ := Invoice.resolve_withoutExcluded isValid_retiring
    Chooser.isByName_takeFirst policy false
  refine ⟨isValid_retiring, Chooser.isByName_takeFirst, by decide +kernel, hresult, ?_⟩
  rw [← hexchanges]
  decide +kernel

end Worked

end Bindle
