import Bindle.Proofs.Graph.Relocation
import Mathlib.Data.List.NodupEquivFin

/-!
# Excluded parcels

A parcel that lists no group took itself out of every group. Nothing in the graph leads to it,
whatever groups it requires. So an invoice may be stripped of these parcels: the others keep their
order and only move up, and each group has the members that it had.

* `Invoice.withoutExcluded`: the invoice that is left.
* `Invoice.IsValid.withoutExcluded`: it is valid if the invoice is.
* `exists_relocates_withoutExcluded`: its parcels stand at other places of the invoice's graph.
-/

namespace Bindle

/-- The invoice without the parcels that took themselves out of every group. -/
def Invoice.withoutExcluded (i : Invoice) : Invoice :=
  { i with parcels := i.parcels.filter (!·.isExcluded) }

variable {i : Invoice}

theorem Invoice.parcels_withoutExcluded_sublist : i.withoutExcluded.parcels.Sublist i.parcels :=
  List.filter_sublist

/-! ## Validity -/

theorem Invoice.WellFormed.withoutExcluded (h : i.WellFormed) : i.withoutExcluded.WellFormed where
  groupNames_nodup := h.groupNames_nodup
  parcelNames_nodup := h.parcelNames_nodup.sublist (i.parcels_withoutExcluded_sublist.map _)
  namesDeclared parcel hparcel :=
    h.namesDeclared parcel (i.parcels_withoutExcluded_sublist.subset hparcel)

/-- A list that another one describes element by element can be shortened on both sides. -/
theorem exists_sublist_of_forall₂ {α β : Type} {R : α → β → Prop} {l : List α} {m m' : List β}
    (h : List.Forall₂ R l m) (hsub : m'.Sublist m) :
    ∃ l', l'.Sublist l ∧ List.Forall₂ R l' m' := by
  induction hsub generalizing l with
  | slnil => exact ⟨[], List.nil_sublist _, .nil⟩
  | cons b _ ih =>
    cases h with
    | cons _ hrest =>
      obtain ⟨l', hl', hforall⟩ := ih hrest
      exact ⟨l', hl'.cons _, hforall⟩
  | cons_cons b _ ih =>
    cases h with
    | cons hab hrest =>
      obtain ⟨l', hl', hforall⟩ := ih hrest
      exact ⟨_ :: l', hl'.cons_cons _, .cons hab hforall⟩

/-- What is left of a valid invoice is valid. -/
theorem Invoice.IsValid.withoutExcluded (h : i.IsValid) : i.withoutExcluded.IsValid := by
  obtain ⟨draft, hdraft⟩ := h
  obtain ⟨hcomplete, hdescribes, hwf⟩ := ofDraft_eq_ok_iff.1 hdraft
  obtain ⟨parcels, hsub, hparcels⟩ :=
    exists_sublist_of_forall₂ hdescribes.parcels i.parcels_withoutExcluded_sublist
  refine ⟨{ draft with parcels := some parcels }, ofDraft_eq_ok_iff.2 ⟨?_, ?_, ?_⟩⟩
  · exact ⟨hcomplete.bindleVersion, hcomplete.bindleName,
      fun parcel hparcel => hcomplete.labels parcel (hsub.subset hparcel)⟩
  · exact ⟨hdescribes.bindleVersion, hdescribes.bindle, hdescribes.annotations,
      hdescribes.groups, hparcels, hdescribes.yanked⟩
  · exact hwf.withoutExcluded

/-! ## Places -/

namespace Graph

/-- What is left of a well-formed invoice stands at other places of its graph, and all groups have
the members that they had. -/
theorem exists_relocates_withoutExcluded (hi : i.WellFormed) :
    ∃ place, Relocates { invoice := i.withoutExcluded } { invoice := i } place fun _ => True := by
  obtain ⟨f, hf⟩ := List.sublist_iff_exists_orderEmbedding_getElem?_eq.1
    i.parcels_withoutExcluded_sublist
  have hparcel : ∀ p : ParcelId, parcel? { invoice := i } ⟨f p.index⟩ =
      parcel? { invoice := i.withoutExcluded } p := fun p => (hf p.index).symm
  refine ⟨fun p => ⟨f p.index⟩, rfl, fun p q hlt => f.strictMono hlt, fun p => ?_, fun p g => ?_,
    fun g p _ => ?_, fun g p _ hheld => ?_⟩
  · rw [hparcel]
  · rw [needs, needs, hparcel]
    rfl
  · rw [holds, holds, hparcel]
    rfl
  · -- a member is not excluded, so it is left, at some position
    obtain ⟨parcel, hp, -⟩ := holds_iff.1 hheld
    have hkept : parcel.isExcluded = false :=
      not_isExcluded_of_mem_members (mem_members.2 hheld) hp
    have hleft : parcel ∈ i.withoutExcluded.parcels :=
      List.mem_filter.2 ⟨mem_parcels_of_parcel? hp, by simp [hkept]⟩
    obtain ⟨q, hq⟩ : ∃ q, parcel? { invoice := i.withoutExcluded } q = some parcel :=
      exists_parcel?_of_mem hleft
    exact ⟨q, parcel?_inj hi ((hparcel q).trans hq) hp rfl⟩

end Graph

end Bindle
