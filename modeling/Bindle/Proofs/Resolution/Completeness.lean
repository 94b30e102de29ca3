import Bindle.Proofs.Resolution.Closure
import Bindle.Proofs.Resolution.Records
import Bindle.Proofs.Resolution.Report
import Bindle.Proofs.Resolution.Verdict

/-!
# Every solution can be found

A solution is a set of parcels that satisfies every group that is required once they are selected,
and in which no parcel is there without reason. A run takes nothing back and asks no second time,
and still it finds any solution if the recorded choices are those of the solution: the member that
belongs to the solution is never closed off, because the group that would close it off holds that
same member, and it is the only one of its members in the solution.

* `Graph.Demands`, `Graph.IsSolution`: the groups that a set of parcels requires, and solutions.
* `Run.IsOnTrack`: the invariant; nothing outside the solution is selected and nothing fails.
* `mem_viable_of_isOpen`: the member that belongs to the solution may be selected.
* `isSolution_of_settledRun`: what a resolution selects when it succeeds is a solution.
* `resolve_finds_solution`: conversely, the resolution selects exactly the solution.
-/

namespace Bindle

/-! ## Solutions -/

namespace Graph

variable {G : Graph} {policy : Policy} {S : Set ParcelId}

/-- The group is required at the outset or by a parcel of the set. -/
def Demands (G : Graph) (policy : Policy) (S : Set ParcelId) (g : GroupId) : Prop :=
  g ∈ G.initiallyRequired policy ∨ ∃ p ∈ S, g ∈ G.requires p

theorem Demands.mem_groupIds {g : GroupId} (h : G.Demands policy S g) : g ∈ G.groupIds := by
  rcases h with hroot | ⟨p, -, hneeds⟩
  · exact mem_initiallyRequired_sub hroot
  · exact mem_groupIds_of_needs (mem_requires.1 hneeds)

/-- A set of parcels that satisfies every group that it requires, each parcel in it reached from
the groups required at the outset. -/
structure IsSolution (G : Graph) (policy : Policy) (S : Set ParcelId) : Prop where
  fulfilled : ∀ g, G.Demands policy S g → G.Fulfils policy.anyOf S g
  reached : ∀ p ∈ S, G.Reached (G.initiallyRequired policy) (fun _ q => q ∈ S) (.parcel p)

/-- The record has the parcel of the set for each group required that accepts one. -/
def ChoosesFrom (G : Graph) (policy : Policy) (S : Set ParcelId) (choices : ChoiceMap) : Prop :=
  ∀ g, G.Demands policy S g → G.policy g = .oneOf → ∀ p ∈ G.members g, p ∈ S →
    choices.get? (G.groupName g) = some (G.parcelName p)

theorem IsSolution.existsUnique (hS : G.IsSolution policy S) {g : GroupId}
    (hg : G.Demands policy S g) (hpolicy : G.policy g = .oneOf) :
    ∃! p, p ∈ G.members g ∧ p ∈ S :=
  (fulfils_oneOf hpolicy).1 (hS.fulfilled g hg)

end Graph

/-! ## Keeping to a solution -/

namespace Run

variable {G : Graph} {policy : Policy} {S : Set ParcelId} {choices : ChoiceMap}
  {run next : Run} {g : GroupId}

/-- Nothing outside the solution is selected or required, and no decision went wrong. -/
structure IsOnTrack (G : Graph) (policy : Policy) (S : Set ParcelId) (run : Run) : Prop where
  required : ∀ g ∈ run.required, G.Demands policy S g
  selection : ∀ p ∈ run.selection, p ∈ S
  errors : run.errors = []
  decided : ∀ g ∈ run.decided, run.Takes G g

/-- **The member that belongs to the solution may be selected.** A group that is closed to it has
a selected member, which is in the solution and therefore is the same parcel; but then the open
group has a selected member itself. -/
theorem mem_viable_of_isOpen (hS : G.IsSolution policy S) (h : run.IsOnTrack G policy S)
    (hopen : run.IsOpen G g) {p : ParcelId} (hp : p ∈ G.members g) (hpS : p ∈ S) :
    p ∈ run.viable G g := by
  refine mem_viable.2 ⟨hp, fun other hne hother => ?_⟩
  rw [Bool.eq_false_iff, ne_eq, isClosed_iff]
  rintro ⟨hrequired, hpolicy, q, hq, hsel⟩
  have hunique := hS.existsUnique (h.required other hrequired) hpolicy
  have heq : q = p := hunique.unique ⟨hq, h.selection q hsel⟩ ⟨hother, hpS⟩
  exact hopen.untaken ⟨p, hp, heq ▸ hsel⟩

/-- The recorded choice for the question is the member that belongs to the solution. -/
theorem answer_of_asks (hchoices : G.ChoosesFrom policy S choices)
    (h : run.IsOnTrack G policy S) (hopen : run.IsOpen G g) {q : Question}
    (hasks : run.Asks G g q) {p : ParcelId} (hp : p ∈ G.members g) (hpS : p ∈ S) :
    choices.chooser run.exchanges q = .select (G.parcelName p) := by
  obtain ⟨-, group, hgroup, rfl⟩ := hasks
  have hget := hchoices g (h.required g hopen.required) hopen.oneOf p hp hpS
  rw [Graph.groupName_of_groupRef (Graph.groupRef_of_group? hgroup)] at hget
  show Choice.ofOption (choices.get? group.name.text) = _
  rw [hget]
  rfl

/-- A question that offers a parcel has a candidate of that name, and it is that parcel. -/
theorem Asks.candidate?_parcelName (hG : G.invoice.WellFormed) {q : Question}
    (hasks : run.Asks G g q) {p : ParcelId} (hp : p ∈ run.viable G g) :
    ∃ c, q.candidate? (G.parcelName p) = some c ∧ c.id = p := by
  have hoffers := hasks.offers
  obtain ⟨parcel, hparcel⟩ := Graph.mem_parcelIds_iff.1
    (Graph.mem_parcelIds_of_holds (Graph.mem_members.1 (mem_viable.1 hp).1))
  obtain ⟨-, group, -, rfl⟩ := hasks
  have hc : (⟨p, parcel.label⟩ : Candidate) ∈ (G.question group.name _).candidates :=
    Graph.mem_candidates.2 ⟨hp, parcel, hparcel, rfl⟩
  have hname : G.parcelName p = Candidate.name ⟨p, parcel.label⟩ := hoffers.parcelName hc
  exact ⟨_, hname ▸ hoffers.candidate?_eq_some hG hc, rfl⟩

/-- A decision selects the member that belongs to the solution. -/
theorem IsOnTrack.selects (hG : G.invoice.WellFormed) (hS : G.IsSolution policy S)
    (hchoices : G.ChoosesFrom policy S choices) (h : run.IsOnTrack G policy S)
    (hopen : run.IsOpen G g) (hdecides : Decides G choices.chooser run g next) :
    ∃ p ∈ G.members g, p ∈ S ∧ next.selection = p :: run.selection ∧ next.errors = run.errors := by
  obtain ⟨p, ⟨hp, hpS⟩, -⟩ := hS.existsUnique (h.required g hopen.required) hopen.oneOf
  have hviable := mem_viable_of_isOpen hS h hopen hp hpS
  cases hdecides with
  | impossible hnone =>
    rw [hnone] at hviable
    cases hviable
  | sole honly =>
    rw [honly, List.mem_singleton] at hviable
    subst hviable
    exact ⟨p, hp, hpS, rfl, rfl⟩
  | chosen hasks hanswer hfound =>
    rw [answer_of_asks hchoices h hopen hasks hp hpS] at hanswer
    cases hanswer
    obtain ⟨c, hc, hid⟩ := hasks.candidate?_parcelName hG hviable
    rw [hc] at hfound
    cases hfound
    exact ⟨p, hp, hpS, by rw [← hid]; rfl, rfl⟩
  | skipped hasks hanswer =>
    rw [answer_of_asks hchoices h hopen hasks hp hpS] at hanswer
    cases hanswer
  | refused hasks hanswer hfound =>
    rw [answer_of_asks hchoices h hopen hasks hp hpS] at hanswer
    cases hanswer
    obtain ⟨c, hc, -⟩ := hasks.candidate?_parcelName hG hviable
    rw [hc] at hfound
    cases hfound

theorem IsOnTrack.step (hG : G.invoice.WellFormed) (hS : G.IsSolution policy S)
    (hchoices : G.ChoosesFrom policy S choices) (h : run.IsOnTrack G policy S)
    (hstep : Step G choices.chooser run next) : next.IsOnTrack G policy S := by
  have hgrows := hstep.grows
  cases hstep with
  | pull =>
    refine ⟨h.required, fun p hp => ?_, h.errors, fun g hg => hgrows.takes (h.decided g hg)⟩
    rcases List.mem_append.1 hp with hp | hp
    · obtain ⟨-, g, hg, hpolicy, hmem⟩ := mem_pulled.1 hp
      exact (Graph.fulfils_allOf hpolicy).1 (hS.fulfilled g (h.required g hg)) p hmem
    · exact h.selection p hp
  | decide hopen hdecides =>
    obtain ⟨hrequired, hdecided, -⟩ := hdecides.outcome
    obtain ⟨p, hp, hpS, hsel, herr⟩ := h.selects hG hS hchoices hopen hdecides
    refine ⟨hrequired ▸ h.required, ?_, herr.trans h.errors, ?_⟩
    · rw [hsel]
      intro q hq
      rcases List.mem_cons.1 hq with rfl | hq
      · exact hpS
      · exact h.selection q hq
    · rw [hdecided]
      intro g' hg'
      rcases List.mem_cons.1 hg' with rfl | hg'
      · exact ⟨p, hp, hsel ▸ List.mem_cons_self⟩
      · exact hgrows.takes (h.decided g' hg')
  | spread =>
    refine ⟨fun g hg => ?_, h.selection, h.errors, h.decided⟩
    rcases mem_spread_required.1 hg with hg | ⟨p, hp, hneeds⟩
    · exact h.required g hg
    · exact .inr ⟨p, h.selection p hp, Graph.mem_requires.2 hneeds⟩

theorem isOnTrack_start :
    (start (G.initiallyRequired policy)).IsOnTrack G policy S := by
  refine ⟨fun g hg => .inl hg, ?_, rfl, ?_⟩
  · intro p hp
    cases hp
  · intro g hg
    cases hg

/-- A quiet state that kept to the solution keeps to the rules with the picks of the solution. -/
theorem IsOnTrack.isClosed (hS : G.IsSolution policy S) (h : run.IsOnTrack G policy S)
    (hquiet : run.IsQuiet G) (hroots : G.initiallyRequired policy ⊆ run.required) :
    G.IsClosed (G.initiallyRequired policy) (fun _ q => q ∈ S) {p | p ∈ run.selection}
      {g | g ∈ run.required} := by
  refine ⟨fun g hg => hroots hg, hquiet.pulled, ?_, ?_⟩
  · intro g hg hpolicy p hp hpS
    obtain ⟨q, hq, hsel⟩ : run.Takes G g :=
      (hquiet.decided g hg hpolicy).elim id (h.decided g)
    have hunique := hS.existsUnique (h.required g hg) hpolicy
    have heq : q = p := hunique.unique ⟨hq, h.selection q hsel⟩ ⟨hp, hpS⟩
    exact heq ▸ hsel
  · intro p hp g hg
    exact hquiet.spread p hp g (Graph.mem_requires.1 hg)

/-- So it has selected all of the solution. -/
theorem IsOnTrack.mem_selection_iff (hS : G.IsSolution policy S) (h : run.IsOnTrack G policy S)
    (hquiet : run.IsQuiet G) (hroots : G.initiallyRequired policy ⊆ run.required)
    {p : ParcelId} : p ∈ run.selection ↔ p ∈ S :=
  ⟨h.selection p, fun hp => (h.isClosed hS hquiet hroots).mem_of_reached (hS.reached p hp)⟩

end Run

/-! ## Resolutions -/

namespace Graph

variable {G : Graph} {policy : Policy} {S : Set ParcelId} {choices : ChoiceMap}

/-- The run with the choices of a solution selects the solution and has no errors. -/
theorem settledRun_of_isSolution (hG : G.invoice.WellFormed) (hacyclic : G.IsAcyclic)
    (hopt : G.DeclaresOptIns policy) (hS : G.IsSolution policy S)
    (hchoices : G.ChoosesFrom policy S choices) :
    ∃ run, G.settledRun policy choices.chooser = .ok run ∧
      (∀ p, p ∈ run.selection ↔ p ∈ S) ∧ run.errorsAtEnd G policy.anyOf = [] := by
  obtain ⟨run, hrun, hpasses, hquiet⟩ := settledRun_eq_ok hacyclic hopt choices.chooser
  have htrack : run.IsOnTrack G policy S :=
    Run.Reaches.preserves (fun h hstep => h.step hG hS hchoices hstep) hpasses Run.isOnTrack_start
  have hselection : ∀ p, p ∈ run.selection ↔ p ∈ S :=
    fun p => htrack.mem_selection_iff hS hquiet hpasses.initiallyRequired_sub
  have hsets : {p | p ∈ run.selection} = S := Set.ext hselection
  refine ⟨run, hrun, hselection, (Run.errorsAtEnd_eq_nil_iff hpasses.tidy).2 ⟨?_, ?_⟩⟩
  · simp [htrack.errors]
  · intro g hg
    rw [hsets]
    exact hS.fulfilled g (htrack.required g hg)

/-! ## Runs end in solutions -/

variable {chooser : Chooser} {run : Run}

/-- At the end of a run the groups required are those that its selection requires. -/
theorem Passes.mem_required_iff (h : G.Passes policy chooser run) (hquiet : run.IsQuiet G)
    {g : GroupId} : g ∈ run.required ↔ G.Demands policy {p | p ∈ run.selection} g := by
  constructor
  · intro hg
    obtain ⟨picks, hjust⟩ := h.justified
    cases hjust.required g hg with
    | root hroot => exact .inl hroot
    | needed hp hneeds =>
      have hclosed := hquiet.isClosed hjust h.initiallyRequired_sub
      exact .inr ⟨_, hclosed.mem_of_reached hp, hneeds⟩
  · rintro (hroot | ⟨p, hp, hneeds⟩)
    · exact h.initiallyRequired_sub hroot
    · exact hquiet.spread p hp g (mem_requires.1 hneeds)

/-- What a resolution selects when it succeeds is a solution. -/
theorem isSolution_of_settledRun (hrun : G.settledRun policy chooser = .ok run)
    (hnone : run.errorsAtEnd G policy.anyOf = []) :
    G.IsSolution policy {p | p ∈ run.selection} := by
  obtain ⟨hpasses, hquiet⟩ := passes_of_settledRun hrun
  refine ⟨fun g hg => ?_, fun p hp => ?_⟩
  · exact fulfils_of_errorsAtEnd hrun hnone ((hpasses.mem_required_iff hquiet).2 hg)
  · obtain ⟨picks, hjust⟩ := hpasses.justified
    exact (hjust.selection p hp).mono fun g q hpick => (hjust.recorded g q hpick).2

/-! ## Runs find solutions -/

/-- **Every solution can be found.** With the choices of a solution recorded, the resolution of a
graph without a cycle succeeds, and selects the parcels of the solution and no others. -/
theorem resolve_finds_solution {i : Invoice} (hi : i.IsValid) (hG : Graph.build i = .ok G)
    (hopt : G.DeclaresOptIns policy) (hS : G.IsSolution policy S)
    (hchoices : G.ChoosesFrom policy S choices) :
    ∃ run m, G.settledRun policy choices.chooser = .ok run ∧
      (G.resolve policy choices.chooser).result = .ok m ∧ {p | p ∈ run.selection} = S ∧
      ∀ p parcel, G.parcel? p = some parcel → (parcel.label ∈ m.parcels ↔ p ∈ S) := by
  obtain ⟨rfl, hacyclic⟩ := build_eq_ok_iff.1 hG
  obtain ⟨run, hrun, hselection, hnone⟩ :=
    settledRun_of_isSolution hi.wellFormed hacyclic hopt hS hchoices
  have hresolve := resolve_eq_ok_iff.2 ⟨run, hrun, hnone, rfl⟩
  refine ⟨run, _, hrun, hresolve, Set.ext hselection, fun p parcel hparcel => ?_⟩
  rw [Run.mem_parcels_iff hi.wellFormed hparcel, hselection]

end Graph

namespace Worked

/-- The server, the first tool, and the parcel that is always selected. -/
def solution : List ParcelId := [⟨0⟩, ⟨1⟩, ⟨4⟩]

def choices : ChoiceMap := .ofList [("cli", "first")]

theorem isSolution : graph.IsSolution policy {p | p ∈ solution} := by
  constructor
  · have hsatisfied : ∀ g ∈ graph.groupIds, graph.isSatisfied policy.anyOf g true solution := by
      decide +kernel
    intro g hg
    exact Graph.isSatisfied_iff.1 (hsatisfied g hg.mem_groupIds)
  · have hroots : ∀ g ∈ ([⟨0⟩, ⟨1⟩, ⟨2⟩] : List GroupId), g ∈ graph.initiallyRequired policy := by
      decide +kernel
    intro p hp
    have hcases : p = ⟨0⟩ ∨ p = ⟨1⟩ ∨ p = ⟨4⟩ := by simpa [solution] using hp
    rcases hcases with rfl | rfl | rfl
    · have hserver := hroots ⟨1⟩ (by decide)
      exact .pulled (.root hserver) (by decide +kernel) (by decide +kernel)
    · have hcli := hroots ⟨2⟩ (by decide)
      exact .picked (.root hcli) (by decide +kernel) (by decide +kernel) hp
    · have hglobal := hroots ⟨0⟩ (by decide)
      exact .pulled (.root hglobal) (by decide +kernel) (by decide +kernel)

theorem choosesFrom : graph.ChoosesFrom policy {p | p ∈ solution} choices := by
  have hrecorded : ∀ g ∈ graph.groupIds, graph.policy g = .oneOf → ∀ p ∈ graph.members g,
      p ∈ solution → choices.get? (graph.groupName g) = some (graph.parcelName p) := by
    decide +kernel
  intro g hg hpolicy p hp hpS
  exact hrecorded g hg.mem_groupIds hpolicy p hp hpS

theorem resolve_choices :
    ∃ run m, graph.settledRun policy choices.chooser = .ok run ∧
      (graph.resolve policy choices.chooser).result = .ok m ∧
      {p | p ∈ run.selection} = {p | p ∈ solution} ∧
      ∀ p parcel, graph.parcel? p = some parcel → (parcel.label ∈ m.parcels ↔ p ∈ solution) :=
  Graph.resolve_finds_solution isValid build_eq declaresOptIns isSolution choosesFrom

end Worked

end Bindle
