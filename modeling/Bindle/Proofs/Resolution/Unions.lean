import Bindle.Proofs.Resolution.Accounts
import Bindle.Proofs.Resolution.Closure

/-!
# Opting into more groups

Where no group accepts just one parcel, nothing is ever picked. What a run selects is then all that
follows from the groups required at the outset, and each step of the rules has one premise: a group
pulls in its members, a parcel requires its groups. So whatever follows from several groups follows
from one of them, and the selection for two sets of opt-ins together is the union of the selections
for each. How many passes the three runs take, and in what order they select, does not matter.

* `Graph.Reached.exists_root`: what follows from the roots follows from one of them.
* `Graph.selectionOf`: what the run of a policy selects; `mem_selectionOf_iff` for graphs without
  picks.
* `Graph.exists_ok_iff`: when a resolution without picks succeeds.
* `Graph.selectionOf_union`, `selectionOf_mono`: what more opt-ins do to the selection.
* `Graph.resolve_without_oneOf`: no questions, success, and the union of opt-ins.
-/

namespace Bindle

namespace Graph

variable {G : Graph} {roots roots' roots₁ roots₂ : List GroupId}
  {picked : GroupId → ParcelId → Prop} {policy : Policy} {chooser : Chooser}

/-! ## What follows from several roots -/

theorem Reached.of_subset (hsub : roots ⊆ roots') {n : Node} (h : G.Reached roots picked n) :
    G.Reached roots' picked n := by
  induction h with
  | root hg => exact .root (hsub hg)
  | pulled _ hpolicy hp ih => exact .pulled ih hpolicy hp
  | picked _ hpolicy hp hpick ih => exact .picked ih hpolicy hp hpick
  | needed _ hg ih => exact .needed ih hg

/-- Every rule has one premise, so a derivation goes back to one root. -/
theorem Reached.exists_root {n : Node} (h : G.Reached roots picked n) :
    ∃ g ∈ roots, G.Reached [g] picked n := by
  induction h with
  | root hg => exact ⟨_, hg, .root List.mem_cons_self⟩
  | pulled _ hpolicy hp ih =>
    obtain ⟨g, hg, hreached⟩ := ih
    exact ⟨g, hg, .pulled hreached hpolicy hp⟩
  | picked _ hpolicy hp hpick ih =>
    obtain ⟨g, hg, hreached⟩ := ih
    exact ⟨g, hg, .picked hreached hpolicy hp hpick⟩
  | needed _ hneeded ih =>
    obtain ⟨g, hg, hreached⟩ := ih
    exact ⟨g, hg, .needed hreached hneeded⟩

/-- What follows from two lists of roots together follows from either. -/
theorem reached_iff_or (hroots : ∀ g, g ∈ roots ↔ g ∈ roots₁ ∨ g ∈ roots₂) {n : Node} :
    G.Reached roots picked n ↔ G.Reached roots₁ picked n ∨ G.Reached roots₂ picked n := by
  constructor
  · intro h
    obtain ⟨g, hg, hreached⟩ := h.exists_root
    refine ((hroots g).1 hg).imp (fun hg₁ => ?_) (fun hg₂ => ?_)
    · exact hreached.of_subset (by simpa using hg₁)
    · exact hreached.of_subset (by simpa using hg₂)
  · rintro (h | h)
    · exact h.of_subset fun g hg => (hroots g).2 (.inl hg)
    · exact h.of_subset fun g hg => (hroots g).2 (.inr hg)

/-! ## Graphs without picks -/

theorem policy_ne_oneOf (hnone : ∀ group ∈ G.invoice.groups, group.policy ≠ .oneOf)
    (g : GroupId) : G.policy g ≠ .oneOf := by
  intro hpolicy
  obtain ⟨group, hgroup, hone⟩ := exists_group?_of_oneOf hpolicy
  exact hnone group (mem_groups_of_group? hgroup) hone

/-- What the run of a policy selects in the end; nothing, if the run does not start. -/
def selectionOf (G : Graph) (policy : Policy) (chooser : Chooser) : Set ParcelId :=
  {p | ∃ run, G.settledRun policy chooser = .ok run ∧ p ∈ run.selection}

section Settled

variable (hnone : ∀ g, G.policy g ≠ .oneOf) {run : Run}
  (hrun : G.settledRun policy chooser = .ok run)

include hnone hrun

/-- What is selected is what follows from the groups required at the outset. -/
theorem mem_selection_iff_reached {p : ParcelId} :
    p ∈ run.selection ↔
      G.Reached (G.initiallyRequired policy) (fun _ _ => False) (.parcel p) := by
  obtain ⟨hpasses, hquiet⟩ := passes_of_settledRun hrun
  obtain ⟨picks, hjust⟩ := hpasses.justified
  constructor
  · intro hp
    exact (hjust.selection p hp).mono fun g q hpick => hnone g (hjust.arePicks g q hpick).1
  · intro h
    have hclosed := hquiet.isClosed hjust hpasses.initiallyRequired_sub
    exact hclosed.mem_of_reached (h.mono fun _ _ => False.elim)

/-- A question is about a group that accepts one parcel. -/
theorem exchanges_eq_nil (hwf : G.invoice.WellFormed) : run.exchanges = [] := by
  have hrecorded := (passes_of_settledRun hrun).1.isRecorded hwf
  refine List.eq_nil_iff_forall_not_mem.2 fun e he => ?_
  obtain ⟨g, hdecided, -, -⟩ := hrecorded.exchanges e he
  exact hnone g (hrecorded.decided g hdecided).2

/-- All that can go wrong is that a required group is left without a member. -/
theorem exists_ok_iff (hwf : G.invoice.WellFormed) :
    (∃ m, (G.resolve policy chooser).result = .ok m) ↔
      (policy.anyOf = .atLeastOne →
        ∀ g ∈ run.required, G.policy g = .anyOf → ∃ p ∈ G.members g, p ∈ run.selection) := by
  obtain ⟨hpasses, hquiet⟩ := passes_of_settledRun hrun
  have hrecorded := hpasses.isRecorded hwf
  have hresolves : (∃ m, (G.resolve policy chooser).result = .ok m) ↔
      run.errorsAtEnd G policy.anyOf = [] := by
    simp [resolve_eq_ok_iff, hrun]
  rw [hresolves, Run.errorsAtEnd_eq_nil_iff_of_isRecorded hpasses.tidy hrecorded,
    exchanges_eq_nil hnone hrun hwf]
  simp only [Run.evaluate_eq_satisfied_iff, List.not_mem_nil, false_implies, implies_true, and_true]
  constructor
  · intro hfulfils hreading g hg hpolicy
    exact (fulfils_anyOf hpolicy).1 (hfulfils g hg) hreading
  · intro hmember g hg
    cases hpolicy : G.policy g with
    | allOf => exact hquiet.fulfils_allOf hg hpolicy
    | oneOf => exact absurd hpolicy (hnone g)
    | anyOf => exact (fulfils_anyOf hpolicy).2 fun hreading => hmember hreading g hg hpolicy

end Settled

/-- Nobody is asked anything, whether or not the run starts. -/
theorem exchanges_resolve_eq_nil (hnone : ∀ g, G.policy g ≠ .oneOf) (hwf : G.invoice.WellFormed)
    (policy : Policy) (chooser : Chooser) : (G.resolve policy chooser).exchanges = [] := by
  cases hrun : G.settledRun policy chooser with
  | error errors => rw [resolve, hrun]
  | ok run =>
    rw [exchanges_resolve hrun]
    exact exchanges_eq_nil hnone hrun hwf

theorem mem_selectionOf_iff (hnone : ∀ g, G.policy g ≠ .oneOf) (hacyclic : G.IsAcyclic)
    (hopt : G.DeclaresOptIns policy) {p : ParcelId} :
    p ∈ G.selectionOf policy chooser ↔
      G.Reached (G.initiallyRequired policy) (fun _ _ => False) (.parcel p) := by
  obtain ⟨run, hrun, -⟩ := settledRun_eq_ok hacyclic hopt chooser
  rw [← mem_selection_iff_reached hnone hrun, selectionOf, Set.mem_ofPred_eq, hrun]
  simp

/-! ## Opt-ins together -/

section Together

variable {reading : AnyOfReading} {O₁ O₂ : NameSet}

theorem DeclaresOptIns.union (h₁ : G.DeclaresOptIns ⟨O₁, reading⟩)
    (h₂ : G.DeclaresOptIns ⟨O₂, reading⟩) : G.DeclaresOptIns ⟨O₁.union O₂, reading⟩ := by
  intro name hname
  rcases NameSet.mem_union.1 hname with hname | hname
  · exact h₁ name hname
  · exact h₂ name hname

theorem mem_optedIn_union (hwf : G.invoice.WellFormed) {g : GroupId} :
    g ∈ G.optedIn ⟨O₁.union O₂, reading⟩ ↔
      g ∈ G.optedIn ⟨O₁, reading⟩ ∨ g ∈ G.optedIn ⟨O₂, reading⟩ := by
  simp only [mem_optedIn_iff hwf, NameSet.mem_union, and_or_left, exists_or]

theorem mem_initiallyRequired_union (hwf : G.invoice.WellFormed) {g : GroupId} :
    g ∈ G.initiallyRequired ⟨O₁.union O₂, reading⟩ ↔
      g ∈ G.initiallyRequired ⟨O₁, reading⟩ ∨ g ∈ G.initiallyRequired ⟨O₂, reading⟩ := by
  simp only [mem_initiallyRequired_iff, mem_optedIn_union hwf, ← and_or_left]
  rw [or_or_distrib_left]

theorem initiallyRequired_subset (hwf : G.invoice.WellFormed) (hsub : ∀ name ∈ O₁, name ∈ O₂) :
    G.initiallyRequired ⟨O₁, reading⟩ ⊆ G.initiallyRequired ⟨O₂, reading⟩ := by
  intro g hg
  rw [mem_initiallyRequired_iff, mem_optedIn_iff hwf] at hg ⊢
  refine hg.imp_right fun hrequired => hrequired.imp_right ?_
  rintro ⟨group, hgroup, hname⟩
  exact ⟨group, hgroup, hsub _ hname⟩

variable (hnone : ∀ g, G.policy g ≠ .oneOf) (hacyclic : G.IsAcyclic)
  (hwf : G.invoice.WellFormed)

include hnone hacyclic hwf

/-- The selections for two sets of opt-ins make up the one for both together. -/
theorem selectionOf_union (h₁ : G.DeclaresOptIns ⟨O₁, reading⟩)
    (h₂ : G.DeclaresOptIns ⟨O₂, reading⟩) (chooser chooser₁ chooser₂ : Chooser) :
    G.selectionOf ⟨O₁.union O₂, reading⟩ chooser =
      G.selectionOf ⟨O₁, reading⟩ chooser₁ ∪ G.selectionOf ⟨O₂, reading⟩ chooser₂ := by
  ext p
  rw [Set.mem_union, mem_selectionOf_iff hnone hacyclic (h₁.union h₂),
    mem_selectionOf_iff hnone hacyclic h₁, mem_selectionOf_iff hnone hacyclic h₂]
  exact reached_iff_or fun g => mem_initiallyRequired_union hwf

theorem selectionOf_mono (hsub : ∀ name ∈ O₁, name ∈ O₂) (h₂ : G.DeclaresOptIns ⟨O₂, reading⟩)
    (chooser₁ chooser₂ : Chooser) :
    G.selectionOf ⟨O₁, reading⟩ chooser₁ ⊆ G.selectionOf ⟨O₂, reading⟩ chooser₂ := by
  intro p hp
  have h₁ : G.DeclaresOptIns ⟨O₁, reading⟩ := fun name hname => h₂ name (hsub name hname)
  rw [mem_selectionOf_iff hnone hacyclic h₁] at hp
  rw [mem_selectionOf_iff hnone hacyclic h₂]
  exact hp.of_subset (initiallyRequired_subset hwf hsub)

end Together

/-- **Without choices, opting in is a union.** When no group accepts just one parcel, nobody is
asked anything, whatever the caller opts into. A resolution with declared opt-ins then succeeds,
unless groups are read strictly and a required one has no selected member. What is selected for two
sets of opt-ins together is what is selected for either, so to opt into more groups never takes a
parcel away. -/
theorem resolve_without_oneOf {i : Invoice} (hi : i.IsValid) (hG : Graph.build i = .ok G)
    (hnone : ∀ group ∈ i.groups, group.policy ≠ .oneOf) :
    (∀ policy chooser, (G.resolve policy chooser).exchanges = []) ∧
    (∀ policy chooser, G.DeclaresOptIns policy →
      ∃ run, G.settledRun policy chooser = .ok run ∧
        (policy.anyOf = .optional → ∃ m, (G.resolve policy chooser).result = .ok m) ∧
        (policy.anyOf = .atLeastOne →
          ((∃ m, (G.resolve policy chooser).result = .ok m) ↔
            ∀ g ∈ run.required, G.policy g = .anyOf →
              ∃ p ∈ G.members g, p ∈ run.selection))) ∧
    (∀ reading O₁ O₂, G.DeclaresOptIns ⟨O₁, reading⟩ → G.DeclaresOptIns ⟨O₂, reading⟩ →
      ∀ chooser chooser₁ chooser₂,
        G.selectionOf ⟨O₁.union O₂, reading⟩ chooser =
          G.selectionOf ⟨O₁, reading⟩ chooser₁ ∪ G.selectionOf ⟨O₂, reading⟩ chooser₂) ∧
    (∀ reading (O O' : NameSet), (∀ name ∈ O, name ∈ O') → G.DeclaresOptIns ⟨O', reading⟩ →
      ∀ chooser chooser',
        G.selectionOf ⟨O, reading⟩ chooser ⊆ G.selectionOf ⟨O', reading⟩ chooser') := by
  obtain ⟨rfl, hacyclic⟩ := build_eq_ok_iff.1 hG
  have hwf := hi.wellFormed
  have hpolicy : ∀ g, Graph.policy ⟨i⟩ g ≠ .oneOf := policy_ne_oneOf hnone
  refine ⟨exchanges_resolve_eq_nil hpolicy hwf, ?_, ?_, ?_⟩
  · intro policy chooser hopt
    obtain ⟨run, hrun, -⟩ := settledRun_eq_ok hacyclic hopt chooser
    have hiff := exists_ok_iff hpolicy hrun hwf
    refine ⟨run, hrun, fun hreading => ?_, fun hreading => ?_⟩
    · rw [hiff, hreading]
      exact AnyOfReading.noConfusion
    · rw [hiff, hreading]
      exact forall_prop_of_true rfl
  · intro reading O₁ O₂ h₁ h₂
    exact selectionOf_union hpolicy hacyclic hwf h₁ h₂
  · intro reading O O' hsub hopt'
    exact selectionOf_mono hpolicy hacyclic hwf hsub hopt'

end Graph

namespace Worked

def console : GroupName := ⟨"console", by decide, by decide +kernel, by decide⟩

/-- A server that needs a utility, and a console whose shell is one. -/
def unforced : Invoice where
  bindleVersion := "1.0.0"
  bindle := ⟨"example/shell", .ofNumbers 0 1 0, [], none⟩
  annotations := .empty
  groups := [⟨server, .allOf, false⟩, ⟨console, .allOf, false⟩, ⟨utility, .anyOf, false⟩]
  parcels := [
    ⟨label "daemon", some [server], [.named utility]⟩,
    ⟨label "shell", some [console, utility], []⟩,
    ⟨label "readme", none, []⟩]
  yanked := false

theorem isValid_unforced : unforced.IsValid := ⟨unforced.toDraft, by decide +kernel⟩

theorem build_unforced : Graph.build unforced = .ok ⟨unforced⟩ := by decide +kernel

/-- The caller wants the groups of these names, and a member of each that is required. -/
def wanting (names : NameSet) : Policy := ⟨names, .atLeastOne⟩

/-- The server alone lacks a utility. With the console there is one, and nothing else changes. -/
theorem union_unforced :
    (Graph.resolve ⟨unforced⟩ (wanting (.ofList ["server"])) .takeFirst).exchanges = [] ∧
      (∃ m, (Graph.resolve ⟨unforced⟩ ⟨.ofList ["server"], .optional⟩ .takeFirst).result = .ok m) ∧
      (∃ run, Graph.settledRun ⟨unforced⟩ (wanting (.ofList ["server"])) .takeFirst = .ok run ∧
        ¬∀ g ∈ run.required, Graph.policy ⟨unforced⟩ g = .anyOf →
          ∃ p ∈ Graph.members ⟨unforced⟩ g, p ∈ run.selection) ∧
      Graph.selectionOf ⟨unforced⟩
          (wanting ((NameSet.ofList ["server"]).union (.ofList ["console"]))) .takeFirst =
        Graph.selectionOf ⟨unforced⟩ (wanting (.ofList ["server"])) .takeLast ∪
          Graph.selectionOf ⟨unforced⟩ (wanting (.ofList ["console"])) .skipAll ∧
      Graph.selectionOf ⟨unforced⟩ (wanting .empty) .skipAll ⊆
        Graph.selectionOf ⟨unforced⟩ (wanting (.ofList ["console"])) .skipAll := by
  have hnone : ∀ group ∈ unforced.groups, group.policy ≠ .oneOf := by decide
  have hdeclares : ∀ names reading, Graph.unknownOptIns ⟨unforced⟩ ⟨names, reading⟩ = [] →
      Graph.DeclaresOptIns ⟨unforced⟩ ⟨names, reading⟩ :=
    fun _ _ => Graph.unknownOptIns_eq_nil_iff.1
  obtain ⟨hsilent, hsucceeds, hunion, hgrows⟩ :=
    Graph.resolve_without_oneOf isValid_unforced build_unforced hnone
  refine ⟨hsilent _ _, ?_, ?_, ?_, ?_⟩
  · obtain ⟨-, -, hoptional, -⟩ :=
      hsucceeds ⟨.ofList ["server"], .optional⟩ .takeFirst (hdeclares _ _ (by decide +kernel))
    exact hoptional rfl
  · obtain ⟨run, hrun, -, hstrict⟩ :=
      hsucceeds (wanting (.ofList ["server"])) .takeFirst (hdeclares _ _ (by decide +kernel))
    have hfails : (Graph.resolve ⟨unforced⟩ (wanting (.ofList ["server"])) .takeFirst).result =
        .error [.unsatisfiable "utility"] := by
      decide +kernel
    refine ⟨run, hrun, fun hmembers => ?_⟩
    obtain ⟨m, hm⟩ := (hstrict rfl).2 hmembers
    rw [hfails] at hm
    cases hm
  · exact hunion _ _ _ (hdeclares _ _ (by decide +kernel)) (hdeclares _ _ (by decide +kernel)) _ _ _
  · exact hgrows _ _ _ (fun name hname => absurd hname (NameSet.not_mem_empty name))
      (hdeclares _ _ (by decide +kernel)) _ _

end Worked

end Bindle
