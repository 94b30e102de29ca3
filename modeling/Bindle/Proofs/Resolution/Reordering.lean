import Bindle.Proofs.Graph.Reordering
import Bindle.Proofs.Resolution.Completeness

/-!
# Solutions in another order

What is required, what satisfies a group and what follows from the rules is said of declarations,
so it carries over from one order of declarations to another. A solution in one order is one in
the other, once its parcels are looked up at their new positions.

* `SameSet`, `counterpart`: sets of parcels with the same declarations.
* `SameGroup.demands_iff`, `SameGroup.fulfils_iff`: required and satisfied groups.
* `IsSolution.of_isReordering`: solutions.
-/

namespace Bindle.Graph

variable {G H : Graph} {policy : Policy} {reading : AnyOfReading} {S T : Set ParcelId}
  {g h : GroupId}

/-! ## Sets of parcels -/

/-- The sets have the same declarations. -/
def SameSet (G H : Graph) (S T : Set ParcelId) : Prop :=
  ∀ p q, SameParcel G H p q → (p ∈ S ↔ q ∈ T)

theorem SameSet.symm (hS : SameSet G H S T) : SameSet H G T S :=
  fun _ _ hp => (hS _ _ hp.symm).symm

/-- The parcels with the declarations of a set of parcels. -/
def counterpart (G H : Graph) (S : Set ParcelId) : Set ParcelId :=
  {q | ∃ p ∈ S, SameParcel G H p q}

theorem sameSet_counterpart (hG : G.invoice.WellFormed) : SameSet G H S (counterpart G H S) := by
  intro p q hp
  constructor
  · intro hpS
    exact ⟨p, hpS, hp⟩
  · rintro ⟨p', hpS, hp'⟩
    exact SameParcel.unique hG hp.symm hp'.symm ▸ hpS

/-- Sets with the same declarations have the same names. -/
theorem SameSet.exists_name (hr : G.invoice.IsReordering H.invoice) (hS : SameSet G H S T)
    (hsub : ∀ p ∈ S, p ∈ G.parcelIds) {name : String} (h : ∃ p ∈ S, G.parcelName p = name) :
    ∃ q ∈ T, H.parcelName q = name := by
  obtain ⟨p, hpS, hname⟩ := h
  obtain ⟨q, hq⟩ := exists_sameParcel hr (hsub p hpS)
  exact ⟨q, (hS p q hq).1 hpS, hq.parcelName.symm.trans hname⟩

theorem SameSet.exists_name_iff (hr : G.invoice.IsReordering H.invoice) (hS : SameSet G H S T)
    (hsub : ∀ p ∈ S, p ∈ G.parcelIds) (hsub' : ∀ q ∈ T, q ∈ H.parcelIds) {name : String} :
    (∃ p ∈ S, G.parcelName p = name) ↔ ∃ q ∈ T, H.parcelName q = name :=
  ⟨hS.exists_name hr hsub, hS.symm.exists_name hr.symm hsub'⟩

/-! ## Groups -/

theorem SameGroup.mem_optedIn_iff (hG : G.invoice.WellFormed) (hH : H.invoice.WellFormed)
    (hg : SameGroup G H g h) : g ∈ G.optedIn policy ↔ h ∈ H.optedIn policy := by
  rw [Graph.mem_optedIn_iff hG, Graph.mem_optedIn_iff hH, hg.group?]

theorem SameGroup.mem_initiallyRequired_iff (hG : G.invoice.WellFormed)
    (hH : H.invoice.WellFormed) (hg : SameGroup G H g h) :
    g ∈ G.initiallyRequired policy ↔ h ∈ H.initiallyRequired policy := by
  rw [Graph.mem_initiallyRequired_iff, Graph.mem_initiallyRequired_iff, hg.isRootRequired,
    hg.mem_optedIn_iff hG hH]
  simp only [hg.left, hg.right]

theorem SameGroup.demands (hr : G.invoice.IsReordering H.invoice) (hG : G.invoice.WellFormed)
    (hH : H.invoice.WellFormed) (hS : SameSet G H S T) (hg : SameGroup G H g h)
    (hdemands : G.Demands policy S g) : H.Demands policy T h := by
  rcases hdemands with hroot | ⟨p, hpS, hneeds⟩
  · exact .inl ((hg.mem_initiallyRequired_iff hG hH).1 hroot)
  · obtain ⟨q, hq⟩ := exists_sameParcel hr (mem_parcelIds_of_needs (mem_requires.1 hneeds))
    exact .inr ⟨q, (hS p q hq).1 hpS, (hg.mem_requires_iff hq).1 hneeds⟩

theorem SameGroup.demands_iff (hr : G.invoice.IsReordering H.invoice) (hG : G.invoice.WellFormed)
    (hH : H.invoice.WellFormed) (hS : SameSet G H S T) (hg : SameGroup G H g h) :
    G.Demands policy S g ↔ H.Demands policy T h :=
  ⟨hg.demands hr hG hH hS, hg.symm.demands hr.symm hH hG hS.symm⟩

/-- A member in one order has a member of the same declaration in the other. -/
theorem SameGroup.exists_member (hr : G.invoice.IsReordering H.invoice) (hg : SameGroup G H g h)
    {p : ParcelId} (hp : p ∈ G.members g) : ∃ q ∈ H.members h, SameParcel G H p q := by
  obtain ⟨q, hq⟩ := exists_sameParcel hr (mem_parcelIds_of_holds (mem_members.1 hp))
  exact ⟨q, (hg.mem_members_iff hq).1 hp, hq⟩

theorem SameGroup.fulfils (hr : G.invoice.IsReordering H.invoice) (hH : H.invoice.WellFormed)
    (hS : SameSet G H S T) (hg : SameGroup G H g h) (hfulfils : G.Fulfils reading S g) :
    H.Fulfils reading T h := by
  cases hpolicy : G.policy g with
  | allOf =>
    rw [fulfils_allOf (hg.policy ▸ hpolicy)]
    intro q hq
    obtain ⟨p, hp, hsame⟩ := hg.symm.exists_member hr.symm hq
    exact (hS p q hsame.symm).1 ((fulfils_allOf hpolicy).1 hfulfils p hp)
  | oneOf =>
    rw [fulfils_oneOf (hg.policy ▸ hpolicy)]
    obtain ⟨p, ⟨hp, hpS⟩, hunique⟩ := (fulfils_oneOf hpolicy).1 hfulfils
    obtain ⟨q, hq, hsame⟩ := hg.exists_member hr hp
    refine ⟨q, ⟨hq, (hS p q hsame).1 hpS⟩, ?_⟩
    rintro q' ⟨hq', hqT⟩
    obtain ⟨p', hp', hsame'⟩ := hg.symm.exists_member hr.symm hq'
    have heq : p' = p := hunique p' ⟨hp', (hS p' q' hsame'.symm).2 hqT⟩
    exact SameParcel.unique hH (heq ▸ hsame'.symm) hsame
  | anyOf =>
    rw [fulfils_anyOf (hg.policy ▸ hpolicy)]
    intro hreading
    obtain ⟨p, hp, hpS⟩ := (fulfils_anyOf hpolicy).1 hfulfils hreading
    obtain ⟨q, hq, hsame⟩ := hg.exists_member hr hp
    exact ⟨q, hq, (hS p q hsame).1 hpS⟩

theorem SameGroup.fulfils_iff (hr : G.invoice.IsReordering H.invoice) (hG : G.invoice.WellFormed)
    (hH : H.invoice.WellFormed) (hS : SameSet G H S T) (hg : SameGroup G H g h) :
    G.Fulfils reading S g ↔ H.Fulfils reading T h :=
  ⟨hg.fulfils hr hH hS, hg.symm.fulfils hr.symm hG hS.symm⟩

/-! ## Solutions -/

/-- What follows from the rules in one order follows in the other, by the same steps. -/
theorem Reached.of_isReordering (hr : G.invoice.IsReordering H.invoice)
    (hG : G.invoice.WellFormed) (hH : H.invoice.WellFormed) (hS : SameSet G H S T) {n : Node}
    (h : G.Reached (G.initiallyRequired policy) (fun _ q => q ∈ S) n) :
    ∀ m, SameNode G H n m → H.Reached (H.initiallyRequired policy) (fun _ q => q ∈ T) m := by
  induction h with
  | root hroot =>
    rintro (h | q) hsame
    · exact .root ((hsame.mem_initiallyRequired_iff hG hH).1 hroot)
    · cases hsame
  | pulled _ hpolicy hp ih =>
    rintro (h | q) hsame
    · cases hsame
    · obtain ⟨h, hg⟩ := exists_sameGroup hr (mem_groupIds_of_holds (mem_members.1 hp))
      exact .pulled (ih (.group h) hg) (hg.policy ▸ hpolicy) ((hg.mem_members_iff hsame).1 hp)
  | picked _ hpolicy hp hpS ih =>
    rintro (h | q) hsame
    · cases hsame
    · obtain ⟨h, hg⟩ := exists_sameGroup hr (mem_groupIds_of_holds (mem_members.1 hp))
      exact .picked (ih (.group h) hg) (hg.policy ▸ hpolicy) ((hg.mem_members_iff hsame).1 hp)
        ((hS _ _ hsame).1 hpS)
  | needed _ hneeds ih =>
    rintro (h | q) hsame
    · obtain ⟨q, hq⟩ := exists_sameParcel hr (mem_parcelIds_of_needs (mem_requires.1 hneeds))
      exact .needed (ih (.parcel q) hq) ((SameGroup.mem_requires_iff hsame hq).1 hneeds)
    · cases hsame

/-- A solution is one in any order. -/
theorem IsSolution.of_isReordering (hr : G.invoice.IsReordering H.invoice)
    (hG : G.invoice.WellFormed) (hH : H.invoice.WellFormed) (hS : G.IsSolution policy S) :
    H.IsSolution policy (counterpart G H S) := by
  have hsame : SameSet G H S (counterpart G H S) := sameSet_counterpart hG
  constructor
  · intro h hdemands
    obtain ⟨g, hg⟩ := exists_sameGroup hr.symm hdemands.mem_groupIds
    have hdemands' := (hg.symm.demands_iff hr hG hH hsame).2 hdemands
    exact hg.symm.fulfils hr hH hsame (hS.fulfilled g hdemands')
  · rintro q ⟨p, hpS, hp⟩
    exact (hS.reached p hpS).of_isReordering hr hG hH hsame (.parcel q) hp

end Bindle.Graph
