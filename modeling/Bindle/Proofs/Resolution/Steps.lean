import Bindle.Proofs.Graph.Declarations
import Bindle.Resolution.Run
import Mathlib.Logic.Relation

/-!
# The steps of a run

A run is taken apart into steps: parcels are pulled in, an open group is decided, or the groups
that selected parcels require become required. What a decision may come to is said once, by
`Decides`, and everything that is true throughout a run is proved by looking at one step.

* `Run.IsOpen`, `Run.Asks`: a group that is to be decided, and the question that is put for it.
* `Run.Decides`: the five ways in which a decision ends; `decides_decide` says that there is no
  other, and `Decides.outcome` what they have in common.
* `Run.Step`, `Run.Reaches`: one step and any number of them; `reaches_pass` takes a pass apart.
* `Run.Waits`: a group that a pass will decide; it waits while others are decided (`Waits.decide`).
* `Run.Grows`: nothing that was required, selected, decided or recorded is ever taken back.
-/

namespace Bindle

/-! ## Questions -/

theorem Graph.mem_candidates {G : Graph} {name : GroupName} {ps : List ParcelId} {c : Candidate} :
    c ∈ (G.question name ps).candidates ↔
      c.id ∈ ps ∧ ∃ parcel, G.parcel? c.id = some parcel ∧ c.label = parcel.label := by
  simp only [question, List.mem_filterMap, Option.map_eq_some_iff]
  constructor
  · rintro ⟨p, hp, parcel, hparcel, rfl⟩
    exact ⟨hp, parcel, hparcel, rfl⟩
  · rintro ⟨hp, parcel, hparcel, hlabel⟩
    exact ⟨c.id, hp, parcel, hparcel, by rw [← hlabel]⟩

theorem Question.candidate?_eq_some {q : Question} {name : String} {c : Candidate}
    (h : q.candidate? name = some c) : c ∈ q.candidates ∧ c.name = name :=
  ⟨List.mem_of_find?_eq_some h, by simpa using List.find?_some h⟩

namespace Run

variable {G : Graph} {chooser : Chooser} {run next last : Run} {g : GroupId} {p : ParcelId}

/-! ## Selected members -/

/-- A member of the group is selected. -/
def Takes (G : Graph) (run : Run) (g : GroupId) : Prop :=
  ∃ p ∈ G.members g, p ∈ run.selection

theorem isTaken_iff : run.isTaken G g = true ↔ run.Takes G g := by
  simp [isTaken, Takes]

theorem isPulled_iff :
    run.isPulled G p = true ↔ ∃ g ∈ run.required, G.policy g = .allOf ∧ p ∈ G.members g := by
  simp [isPulled, Graph.mem_members]

theorem mem_pulled :
    p ∈ run.pulled G ↔
      p ∉ run.selection ∧ ∃ g ∈ run.required, G.policy g = .allOf ∧ p ∈ G.members g := by
  rw [pulled, List.mem_filter, Bool.and_eq_true, isPulled_iff]
  constructor
  · rintro ⟨-, hnew, hpulled⟩
    exact ⟨by simpa using hnew, hpulled⟩
  · rintro ⟨hnew, g, hg, hpolicy, hp⟩
    have hid := Graph.mem_parcelIds_of_holds (Graph.mem_members.1 hp)
    exact ⟨hid, by simpa using hnew, g, hg, hpolicy, hp⟩

/-- A group is closed to further parcels when it is required, accepts one and has one. -/
theorem isClosed_iff :
    run.isClosed G g = true ↔ g ∈ run.required ∧ G.policy g = .oneOf ∧ run.Takes G g := by
  simp [isClosed, isTaken_iff, and_assoc]

/-- A parcel is kept from being selected by another group that is closed and contains it. -/
theorem conflicts_iff :
    run.conflicts G g p = true ↔
      ∃ other, other ≠ g ∧ run.isClosed G other = true ∧ p ∈ G.members other := by
  simp only [conflicts, List.any_eq_true, Graph.mem_groupsOf, Graph.mem_members, Bool.and_eq_true,
    bne_iff_ne]
  exact exists_congr fun _ => and_comm.trans and_assoc

theorem mem_viable :
    p ∈ run.viable G g ↔ p ∈ G.members g ∧
      ∀ other, other ≠ g → p ∈ G.members other → run.isClosed G other = false := by
  simp only [viable, List.mem_filter, conflicts, Bool.not_eq_true', List.any_eq_false,
    Graph.mem_groupsOf, Graph.mem_members, Bool.and_eq_true, bne_iff_ne, not_and,
    Bool.not_eq_true]
  exact and_congr_right fun _ =>
    ⟨fun h other hne hheld => h other hheld hne, fun h other hheld hne => h other hne hheld⟩

theorem mem_calledFor :
    run.isCalledFor G g = true ↔ ∃ p ∈ run.selection, G.needs p g = true := by
  simp [isCalledFor]

theorem mem_spread_required :
    g ∈ (run.spread G).required ↔
      g ∈ run.required ∨ ∃ p ∈ run.selection, G.needs p g = true := by
  simp only [spread, List.mem_append, List.mem_filter, Bool.and_eq_true, mem_calledFor]
  constructor
  · rintro (hg | ⟨-, -, hg⟩)
    · exact .inl hg
    · exact .inr hg
  · rintro (hg | ⟨p, hp, hneeds⟩)
    · exact .inl hg
    · by_cases hg : g ∈ run.required
      · exact .inl hg
      · exact .inr ⟨Graph.mem_groupIds_of_needs hneeds, by simpa using hg, p, hp, hneeds⟩

/-! ## Decisions -/

/-- The group is required, accepts one parcel, was not decided and has no selected member. -/
structure IsOpen (G : Graph) (run : Run) (g : GroupId) : Prop where
  required : g ∈ run.required
  oneOf : G.policy g = .oneOf
  undecided : g ∉ run.decided
  untaken : ¬run.Takes G g

/-- For the group the question is put; there are several parcels that may be selected for it. -/
def Asks (G : Graph) (run : Run) (g : GroupId) (q : Question) : Prop :=
  2 ≤ (run.viable G g).length ∧
    ∃ group, G.group? g = some group ∧ q = G.question group.name (run.viable G g)

/-- The state with one more question and its answer. -/
def record (run : Run) (q : Question) (choice : Choice) : Run :=
  { run with exchanges := run.exchanges ++ [⟨q, choice⟩] }

/-- What the decision of a group may come to. -/
inductive Decides (G : Graph) (chooser : Chooser) (run : Run) (g : GroupId) : Run → Prop
  /-- No parcel may be selected. -/
  | impossible (hviable : run.viable G g = []) :
      Decides G chooser run g ((run.markDecided g).fail g (.unsatisfiable (G.groupName g)))
  /-- Only one parcel may be selected, and it is. -/
  | sole {p : ParcelId} (hviable : run.viable G g = [p]) :
      Decides G chooser run g ((run.markDecided g).select [p])
  /-- The answer names a candidate, and it is selected. -/
  | chosen {q : Question} {name : String} {c : Candidate} (hasks : run.Asks G g q)
      (hanswer : chooser run.exchanges q = .select name) (hfound : q.candidate? name = some c) :
      Decides G chooser run g (((run.markDecided g).record q (.select name)).select [c.id])
  /-- There is no answer. -/
  | skipped {q : Question} (hasks : run.Asks G g q) (hanswer : chooser run.exchanges q = .skip) :
      Decides G chooser run g
        (((run.markDecided g).record q .skip).fail g (.ambiguous q.group.text q.candidateNames))
  /-- The answer names no candidate. -/
  | refused {q : Question} {name : String} (hasks : run.Asks G g q)
      (hanswer : chooser run.exchanges q = .select name) (hfound : q.candidate? name = none) :
      Decides G chooser run g
        (((run.markDecided g).record q (.select name)).fail g (.invalidChoice q.group.text name))

theorem decide_of_takes (h : run.Takes G g) : run.decide G chooser g = run := by
  rw [decide, if_pos (isTaken_iff.2 h)]

theorem decides_ask {ps : List ParcelId} (hps : run.viable G g = ps) (hlen : 2 ≤ ps.length)
    {group : Group} (hgroup : G.group? g = some group) :
    Decides G chooser run g ((run.markDecided g).ask G chooser g ps) := by
  subst hps
  have hasks : run.Asks G g (G.question group.name (run.viable G g)) :=
    ⟨hlen, group, hgroup, rfl⟩
  unfold ask
  rw [hgroup]
  dsimp only
  unfold answer
  cases hanswer : chooser run.exchanges (G.question group.name (run.viable G g)) with
  | skip =>
    rw [show (run.markDecided g).exchanges = run.exchanges from rfl, hanswer]
    exact .skipped hasks hanswer
  | select name =>
    rw [show (run.markDecided g).exchanges = run.exchanges from rfl, hanswer]
    dsimp only
    split
    · rename_i c hfound
      exact .chosen hasks hanswer hfound
    · rename_i hfound
      exact .refused hasks hanswer hfound

/-- A decision of an open group ends in one of the ways listed. -/
theorem decides_decide (h : run.IsOpen G g) :
    Decides G chooser run g (run.decide G chooser g) := by
  have huntaken : run.isTaken G g ≠ true := fun htaken => h.untaken (isTaken_iff.1 htaken)
  obtain ⟨group, hgroup, -⟩ := Graph.exists_group?_of_oneOf h.oneOf
  rw [decide, if_neg huntaken]
  dsimp only
  split
  · rename_i hviable
    exact .impossible hviable
  · rename_i p hviable
    exact .sole hviable
  · rename_i hne hne'
    refine decides_ask rfl ?_ hgroup
    match hviable : run.viable G g with
    | [] => exact absurd hviable hne
    | [p] => exact absurd hviable (hne' p)
    | _ :: _ :: _ => simp

/-- Whatever a decision comes to: the group counts as decided, and either a parcel that may be
selected is selected or the group has an error. -/
theorem Decides.outcome (h : Decides G chooser run g next) :
    next.required = run.required ∧ next.decided = g :: run.decided ∧
      ((∃ p ∈ run.viable G g, next.selection = p :: run.selection ∧ next.errors = run.errors) ∨
        ∃ error, next.selection = run.selection ∧ next.errors = run.errors ++ [(g, error)]) := by
  cases h with
  | impossible hviable => exact ⟨rfl, rfl, .inr ⟨_, rfl, rfl⟩⟩
  | sole hviable => exact ⟨rfl, rfl, .inl ⟨_, by simp [hviable], rfl, rfl⟩⟩
  | chosen hasks hanswer hfound =>
    obtain ⟨-, group, -, rfl⟩ := hasks
    have hmem := Graph.mem_candidates.1 (Question.candidate?_eq_some hfound).1
    exact ⟨rfl, rfl, .inl ⟨_, hmem.1, rfl, rfl⟩⟩
  | skipped hasks hanswer => exact ⟨rfl, rfl, .inr ⟨_, rfl, rfl⟩⟩
  | refused hasks hanswer hfound => exact ⟨rfl, rfl, .inr ⟨_, rfl, rfl⟩⟩

theorem Decides.exchanges_prefix (h : Decides G chooser run g next) :
    run.exchanges <+: next.exchanges := by
  cases h with
  | impossible _ => exact List.prefix_refl _
  | sole _ => exact List.prefix_refl _
  | chosen _ _ _ => exact List.prefix_append _ _
  | skipped _ _ => exact List.prefix_append _ _
  | refused _ _ _ => exact List.prefix_append _ _

/-! ## Steps -/

/-- One step of a run. -/
inductive Step (G : Graph) (chooser : Chooser) : Run → Run → Prop
  | pull (run : Run) : Step G chooser run (run.select (run.pulled G))
  | decide {run next : Run} {g : GroupId} (hopen : run.IsOpen G g)
      (hdecides : Decides G chooser run g next) : Step G chooser run next
  | spread (run : Run) : Step G chooser run (run.spread G)

/-- Any number of steps. -/
def Reaches (G : Graph) (chooser : Chooser) : Run → Run → Prop :=
  Relation.ReflTransGen (Step G chooser)

/-- What every step preserves is preserved throughout. -/
theorem Reaches.preserves {P : Run → Prop}
    (hstep : ∀ {run next}, P run → Step G chooser run next → P next)
    (h : Reaches G chooser run next) (hrun : P run) : P next := by
  induction h with
  | refl => exact hrun
  | tail _ hlast ih => exact hstep ih hlast

/-- A later state has everything that an earlier one has. -/
structure Grows (run next : Run) : Prop where
  required : run.required ⊆ next.required
  selection : run.selection <:+ next.selection
  decided : run.decided ⊆ next.decided
  errors : run.errors <+: next.errors
  exchanges : run.exchanges <+: next.exchanges

theorem Grows.refl (run : Run) : run.Grows run :=
  ⟨List.Subset.refl _, List.suffix_refl _, List.Subset.refl _, List.prefix_refl _,
    List.prefix_refl _⟩

theorem Grows.trans (h : run.Grows next) (h' : next.Grows last) : run.Grows last :=
  ⟨List.Subset.trans h.required h'.required, h.selection.trans h'.selection,
    List.Subset.trans h.decided h'.decided, h.errors.trans h'.errors,
    h.exchanges.trans h'.exchanges⟩

theorem Grows.takes (h : run.Grows next) (hg : run.Takes G g) : next.Takes G g := by
  obtain ⟨p, hp, hsel⟩ := hg
  exact ⟨p, hp, h.selection.subset hsel⟩

theorem Decides.grows (h : Decides G chooser run g next) : run.Grows next := by
  obtain ⟨hrequired, hdecided, houtcome⟩ := h.outcome
  refine ⟨?_, ?_, ?_, ?_, h.exchanges_prefix⟩
  · rw [hrequired]
    exact List.Subset.refl _
  · rcases houtcome with ⟨p, -, hsel, -⟩ | ⟨error, hsel, -⟩
    · exact hsel ▸ List.suffix_cons _ _
    · exact hsel ▸ List.suffix_refl _
  · rw [hdecided]
    exact List.subset_cons_self _ _
  · rcases houtcome with ⟨p, -, -, herr⟩ | ⟨error, -, herr⟩
    · exact herr ▸ List.prefix_refl _
    · exact herr ▸ List.prefix_append _ _

theorem grows_select (ps : List ParcelId) : run.Grows (run.select ps) :=
  ⟨List.Subset.refl _, List.suffix_append _ _, List.Subset.refl _, List.prefix_refl _,
    List.prefix_refl _⟩

theorem grows_spread (run : Run) : run.Grows (run.spread G) :=
  ⟨List.subset_append_left _ _, List.suffix_refl _, List.Subset.refl _, List.prefix_refl _,
    List.prefix_refl _⟩

theorem Step.grows (h : Step G chooser run next) : run.Grows next := by
  cases h with
  | pull => exact grows_select _
  | decide hopen hdecides => exact hdecides.grows
  | spread => exact grows_spread _

theorem Reaches.grows (h : Reaches G chooser run next) : run.Grows next :=
  h.preserves (fun hgrows hstep => hgrows.trans hstep.grows) (Grows.refl run)

/-! ## Passes -/

/-- Nothing is left to decide about the group. -/
def Meets (G : Graph) (run : Run) (g : GroupId) : Prop :=
  run.Takes G g ∨ g ∈ run.decided

theorem Grows.meets (h : run.Grows next) (hg : run.Meets G g) : next.Meets G g :=
  hg.imp h.takes fun hdecided => h.decided hdecided

/-- The group is required, accepts one parcel and was not decided. -/
def Waits (G : Graph) (run : Run) (g : GroupId) : Prop :=
  g ∈ run.required ∧ G.policy g = .oneOf ∧ g ∉ run.decided

/-- When its turn comes, a group that waits has a selected member or is open. -/
theorem Waits.takes_or_isOpen (h : run.Waits G g) : run.Takes G g ∨ run.IsOpen G g := by
  obtain ⟨hrequired, hpolicy, hundecided⟩ := h
  exact (em (run.Takes G g)).imp_right fun htakes => ⟨hrequired, hpolicy, hundecided, htakes⟩

/-- The decision of one group leaves the others waiting. -/
theorem Waits.decide {g' : GroupId} (h : run.Waits G g) (h' : run.Waits G g') (hne : g' ≠ g) :
    (run.decide G chooser g).Waits G g' := by
  rcases h.takes_or_isOpen with htakes | hopen
  · rw [decide_of_takes htakes]
    exact h'
  · have hdecides : Decides G chooser run g (run.decide G chooser g) := decides_decide hopen
    obtain ⟨hrequired, hdecided, -⟩ := hdecides.outcome
    obtain ⟨hr, hp, hu⟩ := h'
    refine ⟨hrequired ▸ hr, hp, ?_⟩
    rw [hdecided, List.mem_cons]
    exact fun hmem => hmem.elim hne hu

/-- Groups that wait to be decided are decided one after the other. -/
theorem reaches_foldl_decide {gs : List GroupId} (hgs : gs.Nodup)
    (hwait : ∀ g ∈ gs, run.Waits G g) :
    Reaches G chooser run (gs.foldl (·.decide G chooser) run) ∧
      (gs.foldl (·.decide G chooser) run).required = run.required ∧
      ∀ g ∈ gs, (gs.foldl (·.decide G chooser) run).Meets G g := by
  induction gs generalizing run with
  | nil => exact ⟨.refl, rfl, by simp⟩
  | cons g rest ih =>
    obtain ⟨hg, hrest⟩ := List.nodup_cons.1 hgs
    have hg' := hwait g List.mem_cons_self
    have hwait' : ∀ g' ∈ rest, (run.decide G chooser g).Waits G g' := fun g' hmem =>
      hg'.decide (hwait g' (List.mem_cons_of_mem _ hmem)) fun heq => hg (heq ▸ hmem)
    obtain ⟨hreach, hsame, hmeets⟩ := ih hrest hwait'
    rw [List.foldl_cons]
    rcases hg'.takes_or_isOpen with htakes | hopen
    · rw [decide_of_takes htakes] at hreach hsame hmeets ⊢
      refine ⟨hreach, hsame, fun g' hg' => ?_⟩
      rcases List.mem_cons.1 hg' with rfl | hg'
      · exact .inl (hreach.grows.takes htakes)
      · exact hmeets g' hg'
    · have hdecides : Decides G chooser run g (run.decide G chooser g) := decides_decide hopen
      obtain ⟨hreq, hdec, -⟩ := hdecides.outcome
      refine ⟨.head (.decide hopen hdecides) hreach, hsame.trans hreq, fun g' hg' => ?_⟩
      rcases List.mem_cons.1 hg' with rfl | hg'
      · refine hreach.grows.meets (.inr ?_)
        rw [hdec]
        exact List.mem_cons_self
      · exact hmeets g' hg'

theorem mem_pending : g ∈ run.pending G ↔ g ∈ G.groupIds ∧ run.Waits G g := by
  simp [pending, Waits, and_assoc]

theorem reaches_decideAll :
    Reaches G chooser run (run.decideAll G chooser) ∧
      (run.decideAll G chooser).required = run.required ∧
      ∀ g ∈ run.pending G, (run.decideAll G chooser).Meets G g :=
  reaches_foldl_decide (Graph.nodup_groupIds.filter _) fun _ hg => (mem_pending.1 hg).2

theorem reaches_pass : Reaches G chooser run (run.pass G chooser) := by
  unfold pass
  split
  · exact reaches_decideAll.1.tail (.spread _)
  · exact (Relation.ReflTransGen.single (.pull run)).tail (.spread _)

end Run

end Bindle
