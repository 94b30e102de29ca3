import Bindle.Proofs.Resolution.Accounts

/-!
# Picks keep groups within their limit

A group that accepts one parcel is decided only while none of its members is selected, and what is
picked for it is no member of a closed group. So a pick is the first selected member of its own
group, and of each required group that accepts one parcel and holds the pick as well: if such a
group had a selected member before, it would be closed to the pick. No required group comes to a
second selected member by a pick.

This does not depend on the order of decisions, because it is judged against the selection at the
time of each. What it does depend on is which groups are required at that time; and parcels that
are pulled in are not checked at all. When no parcel that is pulled in belongs to a group that
accepts one, and these groups are required from the outset, none ever has more than one.

* `Run.Picks`: the decision of a group picks a parcel; `Picks.mem_viable` says which it can be.
* `Run.selectedMembers_pick`, `Run.length_selectedMembers_pick_le`: the group itself after the
  pick, and every other.
* `Run.IsWithinLimits`: the invariant; each step keeps it (`IsWithinLimits.step`).
* `Graph.resolve_never_overfills`: what a pick does, and when no group ends with too many.
-/

namespace Bindle

namespace Graph

variable {G : Graph} {g : GroupId} {p : ParcelId} {selection : Selection} {reading : AnyOfReading}
  {required : Bool}

/-! ## Counting selected members -/

theorem selectedMembers_append_of_not_mem {ps : List ParcelId} (hps : ∀ p ∈ ps, p ∉ G.members g) :
    G.selectedMembers g (ps ++ selection) = G.selectedMembers g selection := by
  unfold selectedMembers
  refine List.filter_congr fun p hp => ?_
  have hnot : p ∉ ps := fun hmem => hps p hmem hp
  simp [hnot]

/-- The first member to be selected is the only one. -/
theorem selectedMembers_cons_of_untaken (hp : p ∈ G.members g)
    (huntaken : ∀ q ∈ G.members g, q ∉ selection) : G.selectedMembers g (p :: selection) = [p] := by
  refine selectedMembers_eq_singleton hp List.mem_cons_self ⟨p, ⟨hp, List.mem_cons_self⟩, ?_⟩
  rintro q ⟨hq, hsel⟩
  exact (List.mem_cons.1 hsel).resolve_right (huntaken q hq)

end Graph

namespace Run

variable {G : Graph} {chooser : Chooser} {run next : Run} {g : GroupId} {p : ParcelId}
  {reading : AnyOfReading}

/-! ## Picks -/

/-- The decision of the group picks the parcel: it is selected, and nothing else. -/
def Picks (G : Graph) (chooser : Chooser) (run : Run) (g : GroupId) (p : ParcelId) : Prop :=
  (run.decide G chooser g).selection = p :: run.selection

/-- A question selects one of the parcels that it offers, or none. -/
theorem selection_ask (G : Graph) (chooser : Chooser) (run : Run) (g : GroupId)
    (ps : List ParcelId) :
    (run.ask G chooser g ps).selection = run.selection ∨
      ∃ p ∈ ps, (run.ask G chooser g ps).selection = p :: run.selection := by
  unfold ask
  split
  · exact .inl rfl
  · rename_i group _
    dsimp only
    unfold answer
    split
    · exact .inl rfl
    · split
      · rename_i c hfound
        have hc := Graph.mem_candidates.1 (Question.candidate?_eq_some hfound).1
        exact .inr ⟨c.id, hc.1, rfl⟩
      · exact .inl rfl

/-- A parcel is picked for a group that has no selected member, and may be selected for it. -/
theorem Picks.mem_viable (h : run.Picks G chooser g p) : ¬run.Takes G g ∧ p ∈ run.viable G g := by
  have hsame : run.selection ≠ p :: run.selection := (List.cons_ne_self p run.selection).symm
  unfold Picks decide at h
  split at h
  · exact absurd h hsame
  · rename_i huntaken
    refine ⟨fun htakes => huntaken (isTaken_iff.2 htakes), ?_⟩
    dsimp only at h
    split at h
    · exact absurd h hsame
    · rename_i only hviable
      obtain rfl : only = p := (List.cons.inj h).1
      exact hviable ▸ List.mem_singleton_self only
    · rcases selection_ask G chooser (run.markDecided g) g (run.viable G g) with
        hnone | ⟨q, hq, hsel⟩
      · rw [hnone] at h
        exact absurd h hsame
      · rw [hsel] at h
        exact (List.cons.inj h).1 ▸ hq

variable (huntaken : ¬run.Takes G g) (hp : p ∈ run.viable G g)

include huntaken hp

/-- A pick is the only selected member of its group. -/
theorem selectedMembers_pick : G.selectedMembers g (p :: run.selection) = [p] :=
  Graph.selectedMembers_cons_of_untaken (Run.mem_viable.1 hp).1 fun q hq hsel =>
    huntaken ⟨q, hq, hsel⟩

/-- **A pick overfills no group.** A required group that accepts one parcel and holds the pick had
no selected member, or it would be closed to it. -/
theorem length_selectedMembers_pick_le {other : GroupId} (hrequired : other ∈ run.required)
    (hpolicy : G.policy other = .oneOf) :
    (G.selectedMembers other (p :: run.selection)).length ≤
      max 1 (G.selectedMembers other run.selection).length := by
  by_cases hmem : p ∈ G.members other
  · have hfree : ¬run.Takes G other := by
      by_cases heq : other = g
      · exact heq ▸ huntaken
      · intro htakes
        have hopen := (Run.mem_viable.1 hp).2 other heq hmem
        rw [isClosed_iff.2 ⟨hrequired, hpolicy, htakes⟩] at hopen
        cases hopen
    rw [Graph.selectedMembers_cons_of_untaken hmem fun q hq hsel => hfree ⟨q, hq, hsel⟩]
    exact Nat.le_max_left _ _
  · have hsame : G.selectedMembers other ([p] ++ run.selection) =
        G.selectedMembers other run.selection :=
      Graph.selectedMembers_append_of_not_mem (by simpa using hmem)
    rw [List.singleton_append] at hsame
    rw [hsame]
    exact Nat.le_max_right _ _

end Run

/-! ## Invoices that keep policies apart -/

/-- No parcel lists both a group that takes all of its members and one that accepts one. -/
def Invoice.SeparatesOneOf (i : Invoice) : Prop :=
  ∀ parcel ∈ i.parcels, ∀ whole ∈ i.groups, ∀ one ∈ i.groups,
    whole.policy = .allOf → one.policy = .oneOf → parcel.Lists whole.name → ¬parcel.Lists one.name

/-- Every group that accepts one parcel is declared required or opted into. -/
def Invoice.RequiresOneOf (i : Invoice) (policy : Policy) : Prop :=
  ∀ group ∈ i.groups, group.policy = .oneOf →
    group.required = true ∨ group.name.text ∈ policy.optedIn

namespace Graph

variable {G : Graph} {policy : Policy} {g : GroupId} {p : ParcelId}

/-- The global group has no member in another group, so it needs no mention in the condition. -/
theorem not_mem_members_of_separates (hsep : G.invoice.SeparatesOneOf) {whole one : GroupId}
    (hwhole : G.policy whole = .allOf) (hone : G.policy one = .oneOf)
    (hp : p ∈ G.members whole) : p ∉ G.members one := by
  obtain ⟨group, hgroup, hdeclared⟩ := exists_group?_of_oneOf hone
  rw [mem_members_of_group? hgroup]
  rintro ⟨parcel, hparcel, hlists⟩
  obtain ⟨parcel', hparcel', hheld⟩ := holds_iff.1 (mem_members.1 hp)
  obtain rfl : parcel = parcel' := Option.some.inj (hparcel.symm.trans hparcel')
  rcases hheld with ⟨-, hnone⟩ | ⟨wholeGroup, hwholeGroup, hlists'⟩
  · obtain ⟨names, hnames, -⟩ := hlists
    rw [hnone] at hnames
    cases hnames
  · rw [policy_of_group? hwholeGroup] at hwhole
    exact hsep parcel (mem_parcels_of_parcel? hparcel) wholeGroup
      (mem_groups_of_group? hwholeGroup) group (mem_groups_of_group? hgroup) hwhole hdeclared
      hlists' hlists

theorem mem_initiallyRequired_of_oneOf (hG : G.invoice.WellFormed)
    (hrequires : G.invoice.RequiresOneOf policy) (hpolicy : G.policy g = .oneOf) :
    g ∈ G.initiallyRequired policy := by
  obtain ⟨group, hgroup, hone⟩ := exists_group?_of_oneOf hpolicy
  refine mem_initiallyRequired_iff.2 ⟨mem_groupIds_of_group? hgroup, ?_⟩
  refine (hrequires group (mem_groups_of_group? hgroup) hone).imp (fun hdeclared => ?_) ?_
  · rw [isRootRequired_of_group? hgroup, hdeclared]
  · exact fun hopted => (mem_optedIn_iff hG).2 ⟨group, hgroup, hopted⟩

end Graph

/-! ## Runs within limits -/

namespace Run

variable {G : Graph} {chooser : Chooser} {run next : Run} {reading : AnyOfReading}

/-- Every group that accepts one parcel is required and has at most one selected member. -/
structure IsWithinLimits (G : Graph) (run : Run) : Prop where
  required : ∀ g, G.policy g = .oneOf → g ∈ run.required
  single : ∀ g, G.policy g = .oneOf → (G.selectedMembers g run.selection).length ≤ 1

/-- One step keeps every group within its limit: what is pulled in belongs to no group that
accepts one parcel, and a pick overfills none. -/
theorem IsWithinLimits.step (hsep : G.invoice.SeparatesOneOf) (h : run.IsWithinLimits G)
    (hstep : Step G chooser run next) : next.IsWithinLimits G := by
  have hrequired : ∀ g, G.policy g = .oneOf → g ∈ next.required :=
    fun g hg => hstep.grows.required (h.required g hg)
  refine ⟨hrequired, fun g hpolicy => ?_⟩
  cases hstep with
  | pull =>
    have hpulled : ∀ p ∈ run.pulled G, p ∉ G.members g := by
      intro p hp
      obtain ⟨-, whole, -, hwhole, hmem⟩ := mem_pulled.1 hp
      exact Graph.not_mem_members_of_separates hsep hwhole hpolicy hmem
    rw [select, Graph.selectedMembers_append_of_not_mem hpulled]
    exact h.single g hpolicy
  | decide hopen hdecides =>
    obtain ⟨-, -, ⟨p, hp, hsel, -⟩ | ⟨error, hsel, -⟩⟩ := hdecides.outcome
    · rw [hsel]
      calc (G.selectedMembers g (p :: run.selection)).length
          ≤ max 1 (G.selectedMembers g run.selection).length :=
            length_selectedMembers_pick_le hopen.untaken hp (h.required g hpolicy) hpolicy
        _ = 1 := Nat.max_eq_left (h.single g hpolicy)
    · rw [hsel]
      exact h.single g hpolicy
  | spread => exact h.single g hpolicy

theorem isWithinLimits_start {policy : Policy} (hG : G.invoice.WellFormed)
    (hrequires : G.invoice.RequiresOneOf policy) :
    (start (G.initiallyRequired policy)).IsWithinLimits G := by
  refine ⟨fun g hg => Graph.mem_initiallyRequired_of_oneOf hG hrequires hg, fun g _ => ?_⟩
  simp [start, Graph.selectedMembers]

/-- That too many are selected is reported of a group only if it is so. -/
theorem IsRecorded.exists_of_overSatisfied (h : run.IsRecorded G chooser) {group : String}
    {selected : List String} (he : .overSatisfied group selected ∈ run.errorsAtEnd G reading) :
    ∃ g, G.policy g = .oneOf ∧ 1 < (G.selectedMembers g run.selection).length := by
  rcases of_mem_errorsAtEnd he with ⟨g, hmem⟩ | ⟨g, -, hend⟩
  · cases h.isOfDecision hmem
  · have hover : G.evaluate reading g true run.selection = .overSatisfied := by
      unfold errorAtEnd? at hend
      split at hend
      · cases hend
      · split at hend <;> cases hend
      · assumption
    exact ⟨g, Graph.evaluate_eq_overSatisfied_iff.1 hover⟩

end Run

namespace Graph

variable {G : Graph}

/-- **A pick never overfills a group.** When the decision of a group picks a parcel, in whatever
state, this is then the only selected member of the group, and no required group that accepts one
parcel has more than one, or more than it had. So if no parcel is in a group that takes all of its
members and in one that accepts one, and all groups of the second kind are required from the
outset, no resolution reports a group with too many, whatever the chooser answers. -/
theorem resolve_never_overfills {i : Invoice} (hi : i.IsValid) (hG : Graph.build i = .ok G)
    (policy : Policy) (chooser : Chooser) :
    (∀ (state : Run) (g : GroupId) (p : ParcelId), state.Picks G chooser g p →
      G.selectedMembers g (state.decide G chooser g).selection = [p] ∧
        ∀ other ∈ state.required, G.policy other = .oneOf →
          (G.selectedMembers other (state.decide G chooser g).selection).length ≤
            max 1 (G.selectedMembers other state.selection).length) ∧
    (i.SeparatesOneOf → i.RequiresOneOf policy →
      ∀ errors, (G.resolve policy chooser).result = .error errors →
        ∀ group selected, .overSatisfied group selected ∉ errors) := by
  constructor
  · intro state g p hpicks
    obtain ⟨huntaken, hp⟩ := hpicks.mem_viable
    rw [show (state.decide G chooser g).selection = p :: state.selection from hpicks]
    exact ⟨Run.selectedMembers_pick huntaken hp,
      fun _ hrequired hpolicy =>
        Run.length_selectedMembers_pick_le huntaken hp hrequired hpolicy⟩
  · intro hsep hrequires errors herrors group selected he
    obtain ⟨rfl, hacyclic⟩ := build_eq_ok_iff.1 hG
    by_cases hopt : Graph.DeclaresOptIns ⟨i⟩ policy
    · obtain ⟨run, hrun, hpasses, -⟩ := settledRun_eq_ok hacyclic hopt chooser
      obtain ⟨-, rfl⟩ := (resolve_eq_error_iff hrun).1 herrors
      have hwithin : run.IsWithinLimits ⟨i⟩ :=
        Run.Reaches.preserves (fun h hstep => h.step hsep hstep) hpasses
          (Run.isWithinLimits_start hi.wellFormed hrequires)
      obtain ⟨g, hpolicy, hmany⟩ := (hpasses.isRecorded hi.wellFormed).exists_of_overSatisfied he
      exact absurd (hwithin.single g hpolicy) (Nat.not_le.2 hmany)
    · rw [resolve_of_not_declaresOptIns hacyclic hopt] at herrors
      rw [← Except.error.inj herrors] at he
      obtain ⟨name, hname⟩ := exists_of_mem_unknownOptIns he
      cases hname

end Graph

namespace Worked

def desk : GroupName := ⟨"desk", by decide, by decide +kernel, by decide⟩

def editor : GroupName := ⟨"editor", by decide, by decide +kernel, by decide⟩

def pager : GroupName := ⟨"pager", by decide, by decide +kernel, by decide⟩

def viewer : GroupName := ⟨"viewer", by decide, by decide +kernel, by decide⟩

/-- A desk, three groups that accept one tool each, and tools that belong to two of them. -/
def crowded : Invoice where
  bindleVersion := "1.0.0"
  bindle := ⟨"example/desk", .ofNumbers 0 1 0, [], none⟩
  annotations := .empty
  groups := [⟨desk, .allOf, true⟩, ⟨editor, .oneOf, true⟩, ⟨pager, .oneOf, true⟩,
    ⟨viewer, .oneOf, true⟩]
  parcels := [
    ⟨label "lamp", some [desk], []⟩,
    ⟨label "light", some [editor], []⟩,
    ⟨label "suite", some [editor, pager], []⟩,
    ⟨label "plain", some [pager, viewer], []⟩]
  yanked := false

/-- Nobody opts into anything. -/
def noOptIns : Policy := ⟨.empty, .atLeastOne⟩

theorem isValid_crowded : crowded.IsValid := ⟨crowded.toDraft, by decide +kernel⟩

theorem build_crowded : Graph.build crowded = .ok ⟨crowded⟩ := by decide +kernel

theorem resolve_crowded : (Graph.resolve ⟨crowded⟩ noOptIns .takeLast).result =
    .error [.unsatisfiable "viewer"] := by
  decide +kernel

theorem separatesOneOf_crowded : crowded.SeparatesOneOf := by
  have hchecked : ∀ parcel ∈ crowded.parcels, ∀ whole ∈ crowded.groups, ∀ one ∈ crowded.groups,
      whole.policy = .allOf → one.policy = .oneOf → parcel.isMemberOf whole.name.text = true →
        ¬parcel.isMemberOf one.name.text = true := by
    decide +kernel
  simpa only [Invoice.SeparatesOneOf, Parcel.isMemberOf_iff] using hchecked

/-- The suite is picked as editor and is a pager as well; then no viewer is left, but no group has
two tools. -/
theorem never_overfills_crowded :
    Graph.selectedMembers ⟨crowded⟩ ⟨2⟩ [⟨2⟩, ⟨0⟩] = [⟨2⟩] ∧
      (Graph.selectedMembers ⟨crowded⟩ ⟨3⟩ [⟨2⟩, ⟨0⟩]).length ≤ 1 ∧
      .overSatisfied "pager" ["suite", "plain"] ∉ [ResolutionError.unsatisfiable "viewer"] := by
  obtain ⟨hpick, hlimits⟩ :=
    Graph.resolve_never_overfills isValid_crowded build_crowded noOptIns .takeLast
  -- the desk is pulled in first
  have hpicks : ((Run.start (Graph.initiallyRequired ⟨crowded⟩ noOptIns)).pass
      ⟨crowded⟩ .takeLast).Picks ⟨crowded⟩ .takeLast ⟨2⟩ ⟨2⟩ := by
    unfold Run.Picks
    decide +kernel
  have hselection : ((Run.start (Graph.initiallyRequired ⟨crowded⟩ noOptIns)).pass
      ⟨crowded⟩ .takeLast).selection = [⟨0⟩] := by
    decide +kernel
  obtain ⟨hown, hothers⟩ := hpick _ _ _ hpicks
  refine ⟨?_, ?_, ?_⟩
  · rwa [hpicks, hselection] at hown
  · have hle := hothers ⟨3⟩ (by decide +kernel) (by decide +kernel)
    rwa [hpicks, hselection] at hle
  · have hrequires : crowded.RequiresOneOf noOptIns := by
      unfold Invoice.RequiresOneOf
      decide +kernel
    exact hlimits separatesOneOf_crowded hrequires _ resolve_crowded _ _

end Worked

end Bindle
