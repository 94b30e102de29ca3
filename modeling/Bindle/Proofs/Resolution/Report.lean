import Bindle.Proofs.Graph.Declarations
import Bindle.Proofs.Resolution.Standing
import Bindle.Resolution.Manifest
import Mathlib.Data.List.Perm.Basic

/-!
# What a manifest tells of its run

A manifest lists labels and reports by name. In a well-formed invoice names tell parcels and
groups apart, so the manifest determines which parcels are selected and which groups are required.
It says nothing more of the run than that: two runs with the same selected parcels and the same
required groups have one manifest.

* `mem_parcels_iff`: a label is listed when its parcel is selected.
* `mem_report_iff`: the reports are those on the groups of the graph.
* `group?_manifest`: a declared group has one, which is found by its name.
* `manifest_congr`: runs that agree on both sets have the same manifest.
-/

namespace Bindle

/-- What looking up the name of a group finds is a report on that group. -/
theorem Manifest.group?_eq_some {m : Manifest} {name : GroupName} {r : GroupReport}
    (h : m.group? name.text = some r) : r ∈ m.report ∧ r.group = .named name := by
  have hfound := List.find?_some h
  refine ⟨List.mem_of_find?_eq_some h, ?_⟩
  cases hgroup : r.group with
  | global => simp [hgroup, GroupRef.name?] at hfound
  | named other =>
    have htext : other.text = name.text := by simpa [hgroup, GroupRef.name?] using hfound
    rw [GroupName.text_inj.1 htext]

namespace Run

variable {G : Graph} {policy : Policy} {run next : Run}

theorem mem_labels {label : Label} :
    label ∈ run.labels G ↔
      ∃ p ∈ run.selection, ∃ parcel, G.parcel? p = some parcel ∧ parcel.label = label := by
  simp only [labels, List.mem_map, List.mem_filter, List.contains_iff_mem]
  constructor
  · rintro ⟨⟨p, parcel⟩, ⟨hd, hp⟩, rfl⟩
    exact ⟨p, hp, parcel, Graph.mem_declaredParcels.1 hd, rfl⟩
  · rintro ⟨p, hp, parcel, hparcel, rfl⟩
    exact ⟨(p, parcel), ⟨Graph.mem_declaredParcels.2 hparcel, hp⟩, rfl⟩

/-- A label is listed exactly when the parcel that it identifies is selected. -/
theorem mem_parcels_iff (hG : G.invoice.WellFormed) {p : ParcelId} {parcel : Parcel}
    (hparcel : G.parcel? p = some parcel) :
    parcel.label ∈ (run.manifest G policy).parcels ↔ p ∈ run.selection := by
  rw [manifest, mem_labels]
  constructor
  · rintro ⟨q, hq, other, hother, hlabel⟩
    have hname : other.name = parcel.name := by rw [Parcel.name, hlabel, Parcel.name]
    exact Graph.parcel?_inj hG hother hparcel hname ▸ hq
  · intro hp
    exact ⟨p, hp, parcel, hparcel, rfl⟩

theorem mem_report_iff {r : GroupReport} :
    r ∈ (run.manifest G policy).report ↔ ∃ g ∈ G.groupIds, run.reportOn G policy g = r := by
  simp [manifest]

/-- There is one report on each group. -/
theorem eq_of_mem_report (hG : G.invoice.WellFormed) {r s : GroupReport}
    (hr : r ∈ (run.manifest G policy).report) (hs : s ∈ (run.manifest G policy).report)
    (hgroup : s.group = r.group) : s = r := by
  obtain ⟨g, hg, rfl⟩ := mem_report_iff.1 hr
  obtain ⟨h, hh, rfl⟩ := mem_report_iff.1 hs
  rw [Graph.groupRef_inj hG hh hg hgroup]

/-- Looking up the name of a group finds the report on it. -/
theorem group?_manifest (hG : G.invoice.WellFormed) {g : GroupId} (hg : g ∈ G.groupIds)
    {name : GroupName} (hname : G.groupRef g = .named name) :
    (run.manifest G policy).group? name.text = some (run.reportOn G policy g) := by
  have hreport : run.reportOn G policy g ∈ (run.manifest G policy).report :=
    mem_report_iff.2 ⟨g, hg, rfl⟩
  have hgroup : (run.reportOn G policy g).group = .named name := hname
  have hsome : ((run.manifest G policy).group? name.text).isSome = true := by
    rw [Manifest.group?, List.find?_isSome]
    exact ⟨_, hreport, by simp [hgroup, GroupRef.name?]⟩
  obtain ⟨r, hr⟩ := Option.isSome_iff_exists.1 hsome
  obtain ⟨hmem, hsame⟩ := Manifest.group?_eq_some hr
  rw [hr, eq_of_mem_report hG hreport hmem (hsame.trans hgroup.symm)]

/-- The groups reported on are those of the graph. -/
theorem map_group_report :
    (run.manifest G policy).report.map (·.group) =
      .global :: G.invoice.groups.map (.named ·.name) := by
  have hdeclared : (List.range G.invoice.groups.length).map (fun i => G.groupRef ⟨i + 1⟩) =
      G.invoice.groups.map (.named ·.name) := by
    refine List.ext_getElem (by simp) fun i hi hi' => ?_
    rw [List.length_map, List.length_range] at hi
    rw [List.getElem_map, List.getElem_range, List.getElem_map]
    exact Graph.groupRef_of_group? (List.getElem?_eq_getElem hi)
  rw [manifest, List.map_map, Graph.groupIds, Graph.groupCount, List.range_succ_eq_map,
    List.map_map, List.map_cons, List.map_map, ← hdeclared]
  rfl

/-! ## Runs that agree -/

theorem contains_congr {α : Type} [BEq α] [LawfulBEq α] {l l' : List α} {a b : α}
    (h : a ∈ l ↔ b ∈ l') : l.contains a = l'.contains b := by
  rw [Bool.eq_iff_iff, List.contains_iff_mem, List.contains_iff_mem]
  exact h

variable (hrequired : ∀ g, g ∈ run.required ↔ g ∈ next.required)
  (hselection : ∀ p, p ∈ run.selection ↔ p ∈ next.selection)

include hrequired hselection in
theorem reportOn_congr (g : GroupId) :
    run.reportOn G policy g = next.reportOn G policy g := by
  have hcontains : run.required.contains g = next.required.contains g :=
    contains_congr (hrequired g)
  have hreason : run.reason G policy g = next.reason G policy g := by
    unfold reason
    simp only [hcontains, fun p => contains_congr (hselection p)]
  have hmembers : ∀ p ∈ G.members g, p ∈ run.selection ↔ p ∈ next.selection :=
    fun p _ => hselection p
  unfold reportOn
  simp only [hcontains, hreason, Graph.isSatisfied, Graph.evaluate_congr hmembers,
    Graph.selectedMembers_congr hmembers]

include hrequired hselection in
/-- Runs with the same selected parcels and the same required groups have the same manifest. -/
theorem manifest_congr : run.manifest G policy = next.manifest G policy := by
  have hlabels : run.labels G = next.labels G := by
    unfold labels
    simp only [fun p => contains_congr (hselection p)]
  have hreport : G.groupIds.map (run.reportOn G policy) =
      G.groupIds.map (next.reportOn G policy) :=
    List.map_congr_left fun g _ => reportOn_congr hrequired hselection g
  unfold manifest
  rw [hlabels, hreport]

end Run

end Bindle
