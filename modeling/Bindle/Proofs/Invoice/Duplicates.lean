import Bindle.Proofs.Invoice.Reporting
import Mathlib.Data.List.Basic

/-!
# Parcels of the same name

No two parcels may have the same name. What is compared is what messages call the parcels, which is
their name, or else the position of a parcel whose name is blank, behind a number sign. Gathering
all violations, the checks report each parcel that is called like one before it, in the order of
the parcels, and no other check says that a name is repeated. That is what is asked for as long as
no parcel has the position of another one for its name; where one does, somebody is accused of
using a name again that occurs once.

* `repeats`: what occurs again in a list.
* `Check.Repeats`: a check that goes to its end, with the names that it calls repeated.
* `repeats_checkParcels`: the names that the checks of the parcels call repeated.
* `HasLookAlike`: a parcel is named like the position of another one.
* `InvoiceDraft.violations_repeats`: what is reported, and when that is what is asked for.
-/

namespace Bindle

open Check (reportIf)

/-! ## What occurs again -/

section Repeats

variable {α β : Type} {seen keys : List String} {key text : String} {k : Nat}

/-- The keys that occur before in the list, or were seen before it, once for each place. -/
def repeats (seen keys : List String) : List String :=
  (keys.zipIdx.filter fun e => e.1 ∈ seen ∨ e.1 ∈ keys.take e.2).map (·.1)

theorem repeats_cons :
    repeats seen (key :: keys) = (if key ∈ seen then [key] else []) ++
      repeats (key :: seen) keys := by
  have hbefore : ∀ e : String × Nat,
      (e.1 ∈ seen ∨ e.1 ∈ (key :: keys).take (e.2 + 1)) ↔
        (e.1 ∈ key :: seen ∨ e.1 ∈ keys.take e.2) := by
    intro e
    rw [List.take_succ_cons, List.mem_cons, List.mem_cons]
    tauto
  have htail : ((keys.zipIdx 1).filter fun e => e.1 ∈ seen ∨ e.1 ∈ (key :: keys).take e.2).map
      (·.1) = repeats (key :: seen) keys := by
    rw [List.zipIdx_succ, List.filter_map, List.map_map, repeats]
    simp only [Function.comp_def, hbefore]
  rw [← htail, repeats, List.zipIdx_cons, List.filter_cons]
  by_cases hkey : key ∈ seen <;> simp [hkey]

theorem mem_take_map_zipIdx {l : List α} {f : α × Nat → String} :
    text ∈ (l.zipIdx.map f).take k ↔ ∃ j < k, ∃ a, l[j]? = some a ∧ f (a, j) = text := by
  simp [List.mem_iff_getElem?, List.getElem?_take, List.getElem?_zipIdx]

/-- Keys that are made of elements and their positions repeat where an element's key is made at an
earlier position. -/
theorem repeats_map_zipIdx {l : List α} {f : α × Nat → String} :
    repeats [] (l.zipIdx.map f) =
      (l.zipIdx.filter fun e => f e ∈ (l.zipIdx.map f).take e.2).map f := by
  have hpositions : (l.zipIdx.map f).zipIdx = l.zipIdx.map fun e => (f e, e.2) := by
    refine List.ext_getElem? fun k => ?_
    simp [List.getElem?_zipIdx, Function.comp_def]
  rw [repeats, hpositions, List.filter_map, List.map_map]
  simp [Function.comp_def]

/-- Of two conditions, the one that is met whenever the other is selects more, unless they are
met by the same elements. -/
theorem map_filter_eq_map_filter_iff {l : List α} {g : α → β} {p q : α → Bool}
    (hqp : ∀ a ∈ l, q a = true → p a = true) :
    (l.filter p).map g = (l.filter q).map g ↔ ∀ a ∈ l, p a = true → q a = true := by
  have hsub : (l.filter p).filter q = l.filter q := by
    rw [List.filter_filter]
    refine List.filter_congr fun a ha => ?_
    have hp := hqp a ha
    cases hq : q a <;> simp_all
  constructor
  · intro h
    have hlength := congrArg List.length h
    rw [List.length_map, List.length_map, ← hsub] at hlength
    have hall := List.filter_sublist.eq_of_length hlength.symm
    intro a ha hp
    exact List.filter_eq_self.1 hall a (List.mem_filter.2 ⟨ha, hp⟩)
  · intro h
    refine congrArg _ (List.filter_congr fun a ha => ?_)
    exact Bool.eq_iff_iff.2 ⟨h a ha, hqp a ha⟩

end Repeats

/-! ## Names that are called repeated -/

namespace Check

variable {α β : Type} {c : Check α} {next : α → Check β} {names more : List String}

/-- Gathering all violations, the check goes to its end and calls these names repeated. -/
def Repeats (c : Check α) (names : List String) : Prop :=
  ∃ reported a, c .collectAll = (reported, some a) ∧
    reported.filterMap Violation.repeatedName? = names

/-- One check after another: the names that the first calls repeated come first. -/
theorem Repeats.bind (hc : c.Repeats names) (hnext : ∀ a, (next a).Repeats more) :
    (c >>= next).Repeats (names ++ more) := by
  obtain ⟨reported, a, hall, rfl⟩ := hc
  obtain ⟨reported', b, hall', rfl⟩ := hnext a
  refine ⟨reported ++ reported', b, ?_, List.filterMap_append⟩
  show Check.bind c next .collectAll = _
  simp [Check.bind, hall, hall']

theorem IsPlain.repeats (h : c.IsPlain) : c.Repeats [] := by
  induction h with
  | pure a => exact ⟨[], a, rfl, rfl⟩
  | report hv => exact ⟨[_], (), rfl, by simp [hv]⟩
  | bind _ _ hc hnext => exact hc.bind hnext

theorem repeats_reportIf (p : Prop) [Decidable p] (name : String) :
    (reportIf p (.duplicateParcel name)).Repeats (if p then [name] else []) := by
  by_cases h : p
  · simp only [reportIf, h, if_true]
    exact ⟨_, (), rfl, rfl⟩
  · simp only [reportIf, h, if_false]
    exact ⟨[], (), rfl, rfl⟩

/-- What says nothing of repeated names may come first. -/
theorem IsPlain.before (hc : c.IsPlain) (hnext : ∀ a, (next a).Repeats more) :
    (c >>= next).Repeats more :=
  hc.repeats.bind hnext

/-- What says nothing of repeated names may follow. -/
theorem Repeats.before (hc : c.Repeats names)
    (hnext : ∀ a, (next a).IsPlain) : (c >>= next).Repeats names := by
  have h := hc.bind fun a => (hnext a).repeats
  rwa [List.append_nil] at h

end Check

open Check (repeats_reportIf)

/-! ## The parcels -/

section Parcels

variable (declared : List GroupName)

/-- A parcel that is called like one before it is reported. -/
theorem ParcelDraft.repeats_check (draft : ParcelDraft) (position : Nat) (seen : List String) :
    (draft.check declared position seen).Repeats
      (if draft.display position ∈ seen then [draft.display position] else []) := by
  unfold check
  refine (LabelDraft.isPlain_check _ draft.label).before fun label => ?_
  refine (repeats_reportIf _ _).before fun _ => ?_
  exact (ConditionsDraft.isPlain_check declared _ _).bind fun place => .pure _

/-- What messages call the parcels from a position on. -/
def displays (position : Nat) (drafts : List ParcelDraft) : List String :=
  (drafts.zipIdx position).map fun e => e.1.display e.2

/-- The names that are called repeated are what messages call a parcel and an earlier one. -/
theorem repeats_checkParcels (drafts : List ParcelDraft) (position : Nat) (seen : List String) :
    (checkParcels declared position seen drafts).Repeats
      (repeats seen (displays position drafts)) := by
  induction drafts generalizing position seen with
  | nil => exact Check.IsPlain.repeats (.pure _)
  | cons draft rest ih =>
    have hcons : displays position (draft :: rest) =
        draft.display position :: displays (position + 1) rest := rfl
    rw [checkParcels, hcons, repeats_cons]
    refine (draft.repeats_check declared position seen).bind fun parcel => ?_
    exact (ih _ _).before fun more => .pure _

end Parcels

/-! ## Names and positions -/

/-- What messages call the parcel at a position if its name is blank. -/
def positionText (position : Nat) : String := s!"#{position}"

theorem toList_positionText (k : Nat) : (positionText k).toList = '#' :: Nat.toDigits 10 k := by
  show ("#" ++ k.repr).toList = _
  simp

theorem positionText_inj {j k : Nat} (h : positionText j = positionText k) : j = k := by
  have hchars := congrArg String.toList h
  rw [toList_positionText, toList_positionText, List.cons_inj_right] at hchars
  simpa using congrArg (fun digits => Nat.ofDigitChars 10 digits 0) hchars

theorem not_isBlank_positionText (k : Nat) : Text.isBlank (positionText k) = false := by
  rw [Text.isBlank, toList_positionText]
  rfl

theorem ParcelDraft.display_of_isBlank {draft : ParcelDraft}
    (h : Text.isBlank draft.label.name = true) (k : Nat) : draft.display k = positionText k :=
  if_pos h

theorem ParcelDraft.display_of_not_isBlank {draft : ParcelDraft}
    (h : Text.isBlank draft.label.name = false) (k : Nat) : draft.display k = draft.label.name :=
  if_neg (by simp [h])

/-- The names of the parcels. -/
def labelNames (drafts : List ParcelDraft) : List String :=
  drafts.map (·.label.name)

/-- A parcel is named like the position of one whose name is blank. -/
def HasLookAlike (drafts : List ParcelDraft) : Prop :=
  ∃ k blank named, drafts[k]? = some blank ∧ Text.isBlank blank.label.name = true ∧
    named ∈ drafts ∧ named.label.name = positionText k

section Names

variable {drafts : List ParcelDraft} {draft : ParcelDraft} {k : Nat}

/-- A parcel before the position is called by messages like the one there. -/
def CalledAgain (drafts : List ParcelDraft) (draft : ParcelDraft) (k : Nat) : Prop :=
  ∃ j < k, ∃ earlier, drafts[j]? = some earlier ∧ earlier.display j = draft.display k

/-- A parcel before the position has the name of the one there, which is not blank. -/
def NamedAgain (drafts : List ParcelDraft) (draft : ParcelDraft) (k : Nat) : Prop :=
  Text.isBlank draft.label.name = false ∧
    ∃ j < k, ∃ earlier, drafts[j]? = some earlier ∧ earlier.label.name = draft.label.name

theorem NamedAgain.calledAgain (h : NamedAgain drafts draft k) : CalledAgain drafts draft k := by
  obtain ⟨hname, j, hj, earlier, hearlier, hsame⟩ := h
  refine ⟨j, hj, earlier, hearlier, ?_⟩
  rw [earlier.display_of_not_isBlank (hsame ▸ hname), draft.display_of_not_isBlank hname, hsame]

/-- Without look-alikes, parcels are called alike because they have the same name. -/
theorem CalledAgain.namedAgain (hnone : ¬HasLookAlike drafts) (hdraft : drafts[k]? = some draft)
    (h : CalledAgain drafts draft k) : NamedAgain drafts draft k := by
  obtain ⟨j, hj, earlier, hearlier, hsame⟩ := h
  cases hname : Text.isBlank draft.label.name with
  | true =>
    rw [draft.display_of_isBlank hname] at hsame
    cases hname' : Text.isBlank earlier.label.name with
    | true =>
      rw [earlier.display_of_isBlank hname'] at hsame
      exact absurd (positionText_inj hsame) (Nat.ne_of_lt hj)
    | false =>
      rw [earlier.display_of_not_isBlank hname'] at hsame
      exact absurd ⟨k, draft, earlier, hdraft, hname, List.mem_of_getElem? hearlier, hsame⟩ hnone
  | false =>
    rw [draft.display_of_not_isBlank hname] at hsame
    cases hname' : Text.isBlank earlier.label.name with
    | true =>
      rw [earlier.display_of_isBlank hname'] at hsame
      exact absurd ⟨j, earlier, draft, hearlier, hname', List.mem_of_getElem? hdraft, hsame.symm⟩
        hnone
    | false =>
      rw [earlier.display_of_not_isBlank hname'] at hsame
      exact ⟨hname, j, hj, earlier, hearlier, hsame⟩

/-- With a look-alike, some parcel is called like an earlier one without having its name. -/
theorem not_hasLookAlike (hexact : ∀ k draft, drafts[k]? = some draft →
    CalledAgain drafts draft k → NamedAgain drafts draft k) : ¬HasLookAlike drafts := by
  rintro ⟨k, blank, named, hblank, hname, hmem, hsame⟩
  obtain ⟨j, hj⟩ := List.mem_iff_getElem?.1 hmem
  clear hmem
  -- The first parcel that is named like the position has nobody before it to repeat.
  induction j using Nat.strongRecOn generalizing named with
  | ind j ih =>
    have hnamed : Text.isBlank named.label.name = false := hsame ▸ not_isBlank_positionText k
    have hcalled : named.display j = blank.display k := by
      rw [named.display_of_not_isBlank hnamed, blank.display_of_isBlank hname, hsame]
    rcases Nat.lt_trichotomy j k with hlt | rfl | hgt
    · have hagain := (hexact k blank hblank ⟨j, hlt, named, hj, hcalled⟩).1
      rw [hname] at hagain
      cases hagain
    · rw [hblank] at hj
      cases hj
      rw [hname] at hnamed
      cases hnamed
    · obtain ⟨-, i, hi, earlier, hearlier, hsame'⟩ :=
        hexact j named hj ⟨k, hgt, blank, hblank, hcalled.symm⟩
      exact ih i hi earlier (hsame'.trans hsame) hearlier

theorem labelNames_eq : labelNames drafts = drafts.zipIdx.map fun e => e.1.label.name := by
  rw [labelNames, ← List.zipIdx_map_fst 0 drafts, List.map_map]
  simp [Function.comp_def]

theorem mem_take_displays_iff :
    draft.display k ∈ (displays 0 drafts).take k ↔ CalledAgain drafts draft k :=
  mem_take_map_zipIdx

theorem mem_take_labelNames_iff :
    (!Text.isBlank draft.label.name && decide (draft.label.name ∈ (labelNames drafts).take k)) =
      true ↔ NamedAgain drafts draft k := by
  rw [labelNames_eq, Bool.and_eq_true, Bool.not_eq_true', decide_eq_true_iff, mem_take_map_zipIdx]
  rfl

/-- The names that occur again, as the names of the parcels in question. -/
theorem filter_repeats_labelNames :
    (repeats [] (labelNames drafts)).filter (fun name => !Text.isBlank name) =
      (drafts.zipIdx.filter fun e => !Text.isBlank e.1.label.name &&
        decide (e.1.label.name ∈ (labelNames drafts).take e.2)).map fun e => e.1.display e.2 := by
  have hrepeats : repeats [] (labelNames drafts) =
      (drafts.zipIdx.filter fun e => decide (e.1.label.name ∈ (labelNames drafts).take e.2)).map
        fun e => e.1.label.name := by
    rw [labelNames_eq, repeats_map_zipIdx]
  rw [hrepeats, List.filter_map, List.filter_filter]
  refine List.map_congr_left fun e he => ?_
  have hname : Text.isBlank e.1.label.name = false := by
    simpa using (Bool.and_eq_true_iff.1 (List.mem_filter.1 he).2).1
  exact (e.1.display_of_not_isBlank hname e.2).symm

/-- Parcels are called alike where their names are the same, and nowhere else, exactly if there
are no look-alikes. -/
theorem repeats_displays_eq_iff :
    repeats [] (displays 0 drafts) =
      (repeats [] (labelNames drafts)).filter (fun name => !Text.isBlank name) ↔
        ¬HasLookAlike drafts := by
  have hcalled : repeats [] (displays 0 drafts) =
      (drafts.zipIdx.filter fun e => decide (e.1.display e.2 ∈ (displays 0 drafts).take e.2)).map
        fun e => e.1.display e.2 := repeats_map_zipIdx
  rw [hcalled, filter_repeats_labelNames, map_filter_eq_map_filter_iff]
  · simp only [decide_eq_true_iff, mem_take_displays_iff, mem_take_labelNames_iff, Prod.forall,
      List.mk_mem_zipIdx_iff_getElem?]
    constructor
    · exact fun h => not_hasLookAlike fun k draft => h draft k
    · exact fun hnone draft k hdraft h => h.namedAgain hnone hdraft
  · intro e _ hnamed
    exact decide_eq_true (mem_take_displays_iff.2 (mem_take_labelNames_iff.1 hnamed).calledAgain)

end Names

/-! ## Invoices -/

namespace InvoiceDraft

theorem repeats_assemble (draft : InvoiceDraft) :
    draft.assemble.Repeats (repeats [] (displays 0 (draft.parcels.getD []))) := by
  unfold assemble
  refine Check.IsPlain.before (.reportIf rfl) fun _ => ?_
  refine draft.bindle.isPlain_check.before fun bindle => ?_
  refine (isPlain_checkGroups _ _ _).before fun groups => ?_
  exact (repeats_checkParcels _ _ _ _).before fun parcels => .pure _

theorem violations_eq {draft : InvoiceDraft} {reported : List Violation} {i : Invoice}
    (h : draft.assemble .collectAll = (reported, some i)) : draft.violations = reported := by
  rw [violations, check, h]
  cases reported <;> rfl

/-- **Which parcels are reported for their name.** Each parcel is reported once that messages call
like an earlier one, in the order of the parcels and by the name that they are called. These are
exactly the parcels with the name of an earlier one, which is not blank, unless some parcel is
named like the position of one whose name is blank. -/
theorem violations_repeats (draft : InvoiceDraft) :
    draft.violations.filterMap Violation.repeatedName? =
      repeats [] (displays 0 (draft.parcels.getD [])) ∧
    (draft.violations.filterMap Violation.repeatedName? =
        (repeats [] (labelNames (draft.parcels.getD []))).filter (fun name => !Text.isBlank name) ↔
      ¬HasLookAlike (draft.parcels.getD [])) := by
  obtain ⟨reported, i, hall, hnames⟩ := draft.repeats_assemble
  rw [violations_eq hall, hnames]
  exact ⟨rfl, repeats_displays_eq_iff⟩

end InvoiceDraft

/-! ## A worked scenario -/

namespace Worked

/-- A parcel that is named like the position of the next one, whose name is blank. -/
def lookAlike : InvoiceDraft where
  bindleVersion := "1.0.0"
  bindle := { name := "example/weather", version := "0.1.0" }
  parcels := some [
    { label := { name := "#1", digests := .single .sha256 "aa" } },
    { label := { name := "", digests := .single .sha256 "aa" } }]

/-- Its name is said to be used again, but it occurs once. -/
theorem not_repeats_lookAlike :
    ¬∀ draft : InvoiceDraft, draft.violations.filterMap Violation.repeatedName? =
      (repeats [] (labelNames (draft.parcels.getD []))).filter
        (fun name => !Text.isBlank name) := by
  intro h
  have hlookAlike := h lookAlike
  revert hlookAlike
  decide +kernel

end Worked

end Bindle
