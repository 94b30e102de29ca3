import Bindle.Proofs.Resolution.Settling
import Mathlib.Order.Bounds.Basic
import Mathlib.Order.SetNotation

/-!
# What a run selects and requires

Whatever the chooser answers, and whether or not the resolution succeeds in the end, a run comes
down to one partial map: for some groups that accept one parcel, the member that was picked. What
is selected and what is required then follow from the groups required at the outset, and nothing
else is: they are the least sets that the rules of resolution allow.

* `Graph.IsClosed`: the rules, for any two sets.
* `Graph.Reached`: what follows from the rules in finitely many steps, so what every closed pair
  of sets contains (`IsClosed.mem_of_reached`).
* `Run.JustifiedBy`: the invariant of a run; each step keeps it for a map that may have grown by
  one pick (`JustifiedBy.step`).
* `selection_isLeast`: the selection and the required groups at the end are the least closed pair.
-/

namespace Bindle

/-! ## Rules -/

namespace Graph

variable {G : Graph} {roots : List GroupId} {picked picked' : GroupId → ParcelId → Prop}

/-- The rules of resolution: the roots are required, required groups contribute all of their
members or those picked, by their policy, and selected parcels make groups required. -/
structure IsClosed (G : Graph) (roots : List GroupId) (picked : GroupId → ParcelId → Prop)
    (S : Set ParcelId) (R : Set GroupId) : Prop where
  root : ∀ g ∈ roots, g ∈ R
  pulled : ∀ g ∈ R, G.policy g = .allOf → ∀ p ∈ G.members g, p ∈ S
  picked : ∀ g ∈ R, G.policy g = .oneOf → ∀ p ∈ G.members g, picked g p → p ∈ S
  needed : ∀ p ∈ S, ∀ g ∈ G.requires p, g ∈ R

/-- What follows from the rules in finitely many steps. -/
inductive Reached (G : Graph) (roots : List GroupId) (picked : GroupId → ParcelId → Prop) :
    Node → Prop
  | root {g : GroupId} (hg : g ∈ roots) : Reached G roots picked (.group g)
  | pulled {g : GroupId} {p : ParcelId} (hg : Reached G roots picked (.group g))
      (hpolicy : G.policy g = .allOf) (hp : p ∈ G.members g) : Reached G roots picked (.parcel p)
  | picked {g : GroupId} {p : ParcelId} (hg : Reached G roots picked (.group g))
      (hpolicy : G.policy g = .oneOf) (hp : p ∈ G.members g) (hpicked : picked g p) :
      Reached G roots picked (.parcel p)
  | needed {p : ParcelId} {g : GroupId} (hp : Reached G roots picked (.parcel p))
      (hg : g ∈ G.requires p) : Reached G roots picked (.group g)

theorem Reached.mono (hpicked : ∀ g p, picked g p → picked' g p) {n : Node}
    (h : G.Reached roots picked n) : G.Reached roots picked' n := by
  induction h with
  | root hg => exact .root hg
  | pulled _ hpolicy hp ih => exact .pulled ih hpolicy hp
  | picked _ hpolicy hp hpick ih => exact .picked ih hpolicy hp (hpicked _ _ hpick)
  | needed _ hg ih => exact .needed ih hg

/-- A node is in the sets: a parcel in the first, or a group in the second. -/
def Node.IsIn (S : Set ParcelId) (R : Set GroupId) : Node → Prop
  | .group g => g ∈ R
  | .parcel p => p ∈ S

/-- Sets that keep to the rules contain what follows from the rules. -/
theorem IsClosed.mem_of_reached {S : Set ParcelId} {R : Set GroupId}
    (hclosed : G.IsClosed roots picked S R) {n : Node} (h : G.Reached roots picked n) :
    n.IsIn S R := by
  induction h with
  | root hg => exact hclosed.root _ hg
  | pulled _ hpolicy hp ih => exact hclosed.pulled _ ih hpolicy _ hp
  | picked _ hpolicy hp hpick ih => exact hclosed.picked _ ih hpolicy _ hp hpick
  | needed _ hg ih => exact hclosed.needed _ ih _ hg

/-- Sets that keep to the rules and hold only what follows from them are the least such sets. -/
theorem IsClosed.isLeast {S : Set ParcelId} {R : Set GroupId}
    (hclosed : G.IsClosed roots picked S R)
    (hS : ∀ p ∈ S, G.Reached roots picked (.parcel p))
    (hR : ∀ g ∈ R, G.Reached roots picked (.group g)) :
    IsLeast {c : Set ParcelId × Set GroupId | G.IsClosed roots picked c.1 c.2} (S, R) := by
  refine ⟨hclosed, ?_⟩
  rintro ⟨S', R'⟩ hclosed'
  refine ⟨fun p hp => ?_, fun g hg => ?_⟩
  · exact hclosed'.mem_of_reached (hS p hp)
  · exact hclosed'.mem_of_reached (hR g hg)

/-- A parcel is reached through a group that holds it and contributes parcels. -/
theorem Reached.exists_group {p : ParcelId} (h : G.Reached roots picked (.parcel p)) :
    ∃ g, G.Reached roots picked (.group g) ∧ G.policy g ≠ .anyOf ∧ p ∈ G.members g := by
  cases h with
  | pulled hg hpolicy hp => exact ⟨_, hg, by simp [hpolicy], hp⟩
  | picked hg hpolicy hp hpick => exact ⟨_, hg, by simp [hpolicy], hp⟩

/-- The map picks members of groups that accept one parcel. -/
def ArePicks (G : Graph) (picks : GroupId → Option ParcelId) : Prop :=
  ∀ g p, picks g = some p → G.policy g = .oneOf ∧ p ∈ G.members g

end Graph

/-! ## The invariant -/

namespace Run

variable {G : Graph} {chooser : Chooser} {roots : List GroupId} {run next : Run}
  {picks : GroupId → Option ParcelId}

/-- The picks of a run, and that everything selected or required follows from them. -/
structure JustifiedBy (G : Graph) (roots : List GroupId) (picks : GroupId → Option ParcelId)
    (run : Run) : Prop where
  arePicks : G.ArePicks picks
  recorded : ∀ g p, picks g = some p → g ∈ run.decided ∧ p ∈ run.selection
  required : ∀ g ∈ run.required, G.Reached roots (fun h q => picks h = some q) (.group g)
  selection : ∀ p ∈ run.selection, G.Reached roots (fun h q => picks h = some q) (.parcel p)

theorem JustifiedBy.pull (h : run.JustifiedBy G roots picks) :
    (run.select (run.pulled G)).JustifiedBy G roots picks := by
  refine ⟨h.arePicks, fun g p hpick => ?_, h.required, fun p hp => ?_⟩
  · obtain ⟨hdecided, hsel⟩ := h.recorded g p hpick
    exact ⟨hdecided, List.mem_append_right _ hsel⟩
  · rcases List.mem_append.1 hp with hp | hp
    · obtain ⟨-, g, hg, hpolicy, hmem⟩ := mem_pulled.1 hp
      exact .pulled (h.required g hg) hpolicy hmem
    · exact h.selection p hp

/-- With one more pick, a pick is the new one or one of the others. -/
theorem eq_or_of_update {g g' : GroupId} {p q : ParcelId}
    (h : Function.update picks g (some p) g' = some q) : g' = g ∧ q = p ∨ picks g' = some q := by
  by_cases heq : g' = g
  · subst heq
    rw [Function.update_self] at h
    exact .inl ⟨rfl, (Option.some.inj h).symm⟩
  · rw [Function.update_of_ne heq] at h
    exact .inr h

/-- A pick for a group that had none leaves the other picks alone. -/
theorem update_of_eq_none {g g' : GroupId} {p q : ParcelId} (hnone : picks g = none)
    (h : picks g' = some q) : Function.update picks g (some p) g' = some q := by
  by_cases heq : g' = g
  · subst heq
    rw [hnone] at h
    cases h
  · rw [Function.update_of_ne heq]
    exact h

/-- A decision adds one pick, or none. -/
theorem JustifiedBy.decides (h : run.JustifiedBy G roots picks) {g : GroupId}
    (hopen : run.IsOpen G g) (hdecides : Decides G chooser run g next) :
    ∃ picks', next.JustifiedBy G roots picks' := by
  obtain ⟨hrequired, hdecided, ⟨p, hp, hsel, -⟩ | ⟨error, hsel, -⟩⟩ := hdecides.outcome
  · have hmem : p ∈ G.members g := (mem_viable.1 hp).1
    have hnone : picks g = none := by
      -- a group with a pick was decided, and an open group was not
      cases hpick : picks g with
      | none => rfl
      | some q => exact absurd (h.recorded g q hpick).1 hopen.undecided
    have hmore : ∀ g' q, picks g' = some q → Function.update picks g (some p) g' = some q :=
      fun _ _ => update_of_eq_none hnone
    refine ⟨Function.update picks g (some p), ?_, ?_, ?_, ?_⟩
    · intro g' q hq
      rcases eq_or_of_update hq with ⟨rfl, rfl⟩ | hq
      · exact ⟨hopen.oneOf, hmem⟩
      · exact h.arePicks g' q hq
    · rw [hdecided, hsel]
      intro g' q hq
      rcases eq_or_of_update hq with ⟨rfl, rfl⟩ | hq
      · exact ⟨List.mem_cons_self, List.mem_cons_self⟩
      · obtain ⟨hd, hs⟩ := h.recorded g' q hq
        exact ⟨List.mem_cons_of_mem _ hd, List.mem_cons_of_mem _ hs⟩
    · rw [hrequired]
      intro g' hg'
      exact (h.required g' hg').mono hmore
    · rw [hsel]
      intro q hq
      rcases List.mem_cons.1 hq with rfl | hq
      · have hg := (h.required g hopen.required).mono hmore
        exact .picked hg hopen.oneOf hmem (Function.update_self _ _ _)
      · exact (h.selection q hq).mono hmore
  · refine ⟨picks, h.arePicks, ?_, hrequired ▸ h.required, hsel ▸ h.selection⟩
    rw [hdecided, hsel]
    intro g' q hq
    obtain ⟨hd, hs⟩ := h.recorded g' q hq
    exact ⟨List.mem_cons_of_mem _ hd, hs⟩

theorem JustifiedBy.spread (h : run.JustifiedBy G roots picks) :
    (run.spread G).JustifiedBy G roots picks := by
  refine ⟨h.arePicks, h.recorded, fun g hg => ?_, h.selection⟩
  rcases mem_spread_required.1 hg with hg | ⟨p, hp, hneeds⟩
  · exact h.required g hg
  · exact .needed (h.selection p hp) (Graph.mem_requires.2 hneeds)

/-- One step keeps everything justified, by the same picks or one more. -/
theorem JustifiedBy.step (h : ∃ picks, run.JustifiedBy G roots picks)
    (hstep : Step G chooser run next) : ∃ picks, next.JustifiedBy G roots picks := by
  obtain ⟨picks, h⟩ := h
  cases hstep with
  | pull => exact ⟨picks, h.pull⟩
  | decide hopen hdecides => exact h.decides hopen hdecides
  | spread => exact ⟨picks, h.spread⟩

theorem justifiedBy_start (roots : List GroupId) :
    (start roots).JustifiedBy G roots fun _ => none := by
  refine ⟨?_, ?_, fun g hg => .root hg, ?_⟩
  · intro g p hpick
    cases hpick
  · intro g p hpick
    cases hpick
  · intro p hp
    cases hp

/-- A quiet state keeps to the rules. -/
theorem IsQuiet.isClosed (hquiet : run.IsQuiet G) (h : run.JustifiedBy G roots picks)
    (hroots : roots ⊆ run.required) :
    G.IsClosed roots (fun g p => picks g = some p) {p | p ∈ run.selection}
      {g | g ∈ run.required} := by
  refine ⟨fun g hg => hroots hg, hquiet.pulled, ?_, ?_⟩
  · intro g _ _ p _ hpick
    exact (h.recorded g p hpick).2
  · intro p hp g hg
    exact hquiet.spread p hp g (Graph.mem_requires.1 hg)

end Run

/-! ## At the end of a run -/

namespace Graph

variable {G : Graph} {policy : Policy} {chooser : Chooser}

theorem Passes.justified {run : Run} (h : G.Passes policy chooser run) :
    ∃ picks, run.JustifiedBy G (G.initiallyRequired policy) picks :=
  Run.Reaches.preserves Run.JustifiedBy.step h ⟨_, Run.justifiedBy_start _⟩

theorem Passes.initiallyRequired_sub {run : Run} (h : G.Passes policy chooser run) :
    G.initiallyRequired policy ⊆ run.required :=
  h.grows.required

/-- Every selected parcel is a member of a required group that contributes parcels. -/
theorem Passes.exists_group {run : Run} (h : G.Passes policy chooser run) (hquiet : run.IsQuiet G)
    {p : ParcelId} (hp : p ∈ run.selection) :
    ∃ g ∈ run.required, G.policy g ≠ .anyOf ∧ p ∈ G.members g := by
  obtain ⟨picks, hjust⟩ := h.justified
  obtain ⟨g, hg, hpolicy, hmem⟩ := (hjust.selection p hp).exists_group
  exact ⟨g, (hquiet.isClosed hjust h.initiallyRequired_sub).mem_of_reached hg, hpolicy, hmem⟩

/-- **Selection is a least closure.** However the chooser answers, the run of a graph without a
cycle settles, and there are picks for which its selection and its required groups are the least
sets that keep to the rules. So each selected parcel follows from the rules in finitely many
steps, is a member of a required group whose policy is not `anyOf`, and is not excluded. -/
theorem selection_isLeast {i : Invoice} (hG : Graph.build i = .ok G)
    (hopt : G.DeclaresOptIns policy) (chooser : Chooser) :
    ∃ run, G.settledRun policy chooser = .ok run ∧
      ∃ picks : GroupId → Option ParcelId, G.ArePicks picks ∧
        IsLeast
          {c : Set ParcelId × Set GroupId |
            G.IsClosed (G.initiallyRequired policy) (fun g p => picks g = some p) c.1 c.2}
          ({p | p ∈ run.selection}, {g | g ∈ run.required}) ∧
        ∀ p ∈ run.selection,
          G.Reached (G.initiallyRequired policy) (fun g q => picks g = some q) (.parcel p) ∧
          (∃ g ∈ run.required, G.policy g ≠ .anyOf ∧ p ∈ G.members g) ∧
          ∀ parcel, G.parcel? p = some parcel → parcel.isExcluded = false := by
  obtain ⟨run, hrun, hpasses, hquiet⟩ :=
    settledRun_eq_ok (build_eq_ok_iff.1 hG).2 hopt chooser
  obtain ⟨picks, hjust⟩ := hpasses.justified
  have hclosed := hquiet.isClosed hjust hpasses.initiallyRequired_sub
  refine ⟨run, hrun, picks, hjust.arePicks, ?_, fun p hp => ⟨hjust.selection p hp, ?_, ?_⟩⟩
  · exact hclosed.isLeast hjust.selection hjust.required
  · exact hpasses.exists_group hquiet hp
  · intro parcel hparcel
    obtain ⟨g, -, -, hmem⟩ := hpasses.exists_group hquiet hp
    exact not_isExcluded_of_mem_members hmem hparcel

end Graph

/-- Nobody answers in the worked scenario, and still the selection is a least closure. -/
theorem Worked.exists_isLeast :
    ∃ run, graph.settledRun policy .skipAll = .ok run ∧
      ∃ picks : GroupId → Option ParcelId, graph.ArePicks picks ∧
        IsLeast
          {c : Set ParcelId × Set GroupId |
            graph.IsClosed (graph.initiallyRequired policy) (fun g p => picks g = some p) c.1 c.2}
          ({p | p ∈ run.selection}, {g | g ∈ run.required}) := by
  obtain ⟨run, hrun, picks, hpicks, hleast, -⟩ :=
    Graph.selection_isLeast build_eq declaresOptIns .skipAll
  exact ⟨run, hrun, picks, hpicks, hleast⟩

end Bindle
