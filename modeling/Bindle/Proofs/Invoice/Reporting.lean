import Bindle.Invoice.Assembly

/-!
# Stopping at the first violation

The checks of a draft may stop at the first violation or gather all of them, and the two modes tell
the same. Gathering all, every check goes to its end; stopping at the first, it is the same check
cut off at its first report. So both modes make the same invoice, or the one violation reported is
the first of all. What a check goes on with after a report is of no account here: it may only add
to what was reported before.

* `Check.cutOff`: what is left of a check that ends at the first of its reports.
* `Check.IsCoherent`: a check that does in one mode what it does in the other, cut off there;
  `IsCoherent.bind` carries it through a sequence of checks.
* `Check.IsPlain`: a check put together of reports, none of them that parcels have the same name;
  so are all checks of a draft but those of its parcels.
* `InvoiceDraft.isCoherent_assemble`: all checks of a draft together.
* `InvoiceDraft.check_modes_agree`: the two modes compared.
-/

namespace Bindle

/-- The name that the violation says two parcels have. -/
def Violation.repeatedName? : Violation → Option String
  | .duplicateParcel name => some name
  | _ => none

/-! ## Coherent checks -/

namespace Check

variable {α β : Type} {c : Check α}

/-- What is left of a check that ends at the first of its reports. -/
def cutOff (a : α) : List Violation → List Violation × Option α
  | [] => ([], some a)
  | first :: _ => ([first], none)

/-- A check that gathers all violations goes to its end, and one that stops at the first does the
same up to there. -/
def IsCoherent (c : Check α) : Prop :=
  ∃ reported a, c .collectAll = (reported, some a) ∧ c .failFast = cutOff a reported

theorem isCoherent_pure (a : α) : (Pure.pure a : Check α).IsCoherent :=
  ⟨[], a, rfl, rfl⟩

theorem isCoherent_report (v : Violation) : (report v).IsCoherent :=
  ⟨[v], (), rfl, rfl⟩

theorem isCoherent_reportIf (p : Prop) [Decidable p] (v : Violation) :
    (reportIf p v).IsCoherent := by
  by_cases h : p
  · simp only [reportIf, h, if_true]
    exact isCoherent_report v
  · simp only [reportIf, h, if_false]
    exact isCoherent_pure ()

/-- Checks that are coherent one by one are so one after the other: once the first has reported,
the second has no say in where the sequence is cut off. -/
theorem IsCoherent.bind (hc : c.IsCoherent) {next : α → Check β}
    (hnext : ∀ a, (next a).IsCoherent) : (c >>= next).IsCoherent := by
  obtain ⟨reported, a, hall, hfast⟩ := hc
  obtain ⟨more, b, hall', hfast'⟩ := hnext a
  refine ⟨reported ++ more, b, ?_, ?_⟩
  · show Check.bind c next .collectAll = _
    simp [Check.bind, hall, hall']
  · show Check.bind c next .failFast = _
    cases reported with
    | nil => simp [Check.bind, hfast, hfast', cutOff]
    | cons first rest => simp [Check.bind, hfast, cutOff]

/-! ## What checks are made of -/

/-- The check is put together of results and of reports, one after the other, and none of the
reports is that parcels have the same name. -/
inductive IsPlain : {α : Type} → Check α → Prop
  | pure {α : Type} (a : α) : IsPlain (Pure.pure a : Check α)
  | report {v : Violation} (hv : v.repeatedName? = none) : IsPlain (report v)
  | bind {α β : Type} {c : Check α} {next : α → Check β} (hc : IsPlain c)
    (hnext : ∀ a, IsPlain (next a)) : IsPlain (c >>= next)

variable {v : Violation}

theorem IsPlain.isCoherent (h : c.IsPlain) : c.IsCoherent := by
  induction h with
  | pure a => exact isCoherent_pure a
  | report _ => exact isCoherent_report _
  | bind _ _ hc hnext => exact hc.bind hnext

theorem IsPlain.reportIf {p : Prop} [Decidable p] (hv : v.repeatedName? = none) :
    (Check.reportIf p v).IsPlain := by
  by_cases h : p
  · simp only [Check.reportIf, h, if_true]
    exact .report hv
  · simp only [Check.reportIf, h, if_false]
    exact .pure ()

/-- After a report the check may go on as it likes. -/
theorem IsPlain.report_bind (hv : v.repeatedName? = none) {next : Unit → Check β}
    (hnext : (next ()).IsPlain) : (Check.report v >>= next).IsPlain :=
  (IsPlain.report hv).bind fun _ => hnext

end Check

open Check (isCoherent_pure isCoherent_reportIf)

/-! ## The bindle -/

theorem BindleDraft.isPlain_checkVersion (draft : BindleDraft) :
    draft.checkVersion.IsPlain := by
  unfold checkVersion
  split
  · exact .report_bind rfl (.pure _)
  · split
    · exact .pure _
    · exact .report_bind rfl (.pure _)

theorem BindleDraft.isPlain_check (draft : BindleDraft) : draft.check.IsPlain := by
  unfold check
  refine .bind (.reportIf rfl) fun _ => ?_
  exact draft.isPlain_checkVersion.bind fun version => .pure _

/-! ## Groups -/

theorem GroupDraft.isPlain_checkPolicy (draft : GroupDraft) :
    draft.checkPolicy.IsPlain := by
  unfold checkPolicy
  split
  · exact .pure _
  · split
    · exact .pure _
    · exact .report_bind rfl (.pure _)

theorem GroupDraft.isPlain_check (draft : GroupDraft) (position : Nat)
    (earlier : List GroupName) : (draft.check position earlier).IsPlain := by
  unfold check
  split
  · exact .report_bind rfl (.pure _)
  · exact .report_bind rfl (.pure _)
  · refine draft.isPlain_checkPolicy.bind fun policy => ?_
    split
    · exact .report_bind rfl (.pure _)
    · exact .pure _

theorem isPlain_checkGroups (drafts : List GroupDraft) (position : Nat)
    (earlier : List GroupName) :
    (checkGroups position earlier drafts).IsPlain := by
  induction drafts generalizing position earlier with
  | nil => exact .pure _
  | cons draft rest ih =>
    rw [checkGroups]
    refine (draft.isPlain_check position earlier).bind fun result => ?_
    -- a refused group is left out, and the groups after it are checked all the same
    cases result with
    | none => exact ih _ _
    | some group => exact (ih _ _).bind fun more => .pure _

/-! ## Conditions -/

variable (declared : List GroupName) (parcel : String)

theorem isPlain_checkMemberOf (texts : List String) :
    (checkMemberOf declared parcel texts).IsPlain := by
  induction texts with
  | nil => exact .pure _
  | cons text rest ih =>
    rw [checkMemberOf]
    split
    · exact .report_bind rfl ih
    · split
      · exact ih.bind fun more => .pure _
      · exact .report_bind rfl ih

theorem isPlain_checkRequires (texts : List String) :
    (checkRequires declared parcel texts).IsPlain := by
  induction texts with
  | nil => exact .pure _
  | cons text rest ih =>
    rw [checkRequires]
    split
    · exact ih.bind fun more => .pure _
    · split
      · exact ih.bind fun more => .pure _
      · exact .report_bind rfl ih

theorem isPlain_checkMembership (texts? : Option (List String)) :
    (checkMembership declared parcel texts?).IsPlain := by
  cases texts? with
  | none => exact .pure _
  | some texts =>
    exact (isPlain_checkMemberOf declared parcel texts).bind fun names => .pure _

theorem ConditionsDraft.isPlain_check (draft : ConditionsDraft) :
    (draft.check declared parcel).IsPlain := by
  unfold check
  refine (isPlain_checkMembership declared parcel _).bind fun memberOf => ?_
  exact (isPlain_checkRequires declared parcel _).bind fun requires => .pure _

/-! ## Parcels -/

theorem LabelDraft.isPlain_check (draft : LabelDraft) :
    (draft.check parcel).IsPlain := by
  unfold check
  split
  · exact .pure _
  · exact .report_bind rfl (.pure _)

theorem ParcelDraft.isCoherent_check (draft : ParcelDraft) (position : Nat)
    (seen : List String) : (draft.check declared position seen).IsCoherent := by
  unfold check
  refine (LabelDraft.isPlain_check _ draft.label).isCoherent.bind fun label => ?_
  refine (isCoherent_reportIf _ _).bind fun _ => ?_
  refine (ConditionsDraft.isPlain_check declared _ _).isCoherent.bind fun place => ?_
  exact isCoherent_pure _

theorem isCoherent_checkParcels (drafts : List ParcelDraft) (position : Nat)
    (seen : List String) : (checkParcels declared position seen drafts).IsCoherent := by
  induction drafts generalizing position seen with
  | nil => exact isCoherent_pure _
  | cons draft rest ih =>
    rw [checkParcels]
    refine (draft.isCoherent_check declared position seen).bind fun parcel => ?_
    exact (ih _ _).bind fun more => isCoherent_pure _

/-! ## Invoices -/

namespace InvoiceDraft

/-- All checks of a draft together do the same in both modes, up to the first violation. -/
theorem isCoherent_assemble (draft : InvoiceDraft) : draft.assemble.IsCoherent := by
  unfold assemble
  refine (isCoherent_reportIf _ _).bind fun _ => ?_
  refine draft.bindle.isPlain_check.isCoherent.bind fun bindle => ?_
  refine (isPlain_checkGroups _ _ _).isCoherent.bind fun groups => ?_
  refine (isCoherent_checkParcels _ _ _ _).bind fun parcels => ?_
  exact isCoherent_pure _

/-- Either nothing is reported and both modes make the same invoice, or the one violation at which
the checks stop is the first of all. -/
theorem check_eq_ok_or_error (draft : InvoiceDraft) :
    (∃ i, draft.check .failFast = .ok i ∧ draft.check .collectAll = .ok i) ∨
      ∃ first rest, draft.check .failFast = .error [first] ∧
        draft.check .collectAll = .error (first :: rest) := by
  obtain ⟨reported, i, hall, hfast⟩ := draft.isCoherent_assemble
  cases reported with
  | nil =>
    refine .inl ⟨i, ?_, ?_⟩
    · simp [check, hfast, Check.cutOff]
    · simp [check, hall]
  | cons first rest =>
    refine .inr ⟨first, rest, ?_, ?_⟩
    · simp [check, hfast, Check.cutOff]
    · simp [check, hall]

/-- **The two modes of reporting agree.** A draft either makes the same invoice in both modes, or
is refused in both; then the list of the mode that stops early holds one violation, which is the
first in the list of the other. So an invoice is refused exactly when there are violations, and
with the first of them. -/
theorem check_modes_agree (draft : InvoiceDraft) :
    ((∃ i, draft.check .failFast = .ok i ∧ draft.check .collectAll = .ok i) ∨
      ∃ first rest, draft.check .failFast = .error [first] ∧
        draft.check .collectAll = .error (first :: rest)) ∧
    ((∃ v, Invoice.ofDraft draft = .error v) ↔ draft.violations ≠ []) ∧
    ∀ v, Invoice.ofDraft draft = .error v ↔ draft.violations.head? = some v := by
  have hmodes := draft.check_eq_ok_or_error
  refine ⟨hmodes, ?_⟩
  rcases hmodes with ⟨i, hfast, hall⟩ | ⟨first, rest, hfast, hall⟩
  · have hmade : Invoice.ofDraft draft = .ok i := by
      rw [Invoice.ofDraft, hfast]
    have hnone : draft.violations = [] := by
      rw [violations, hall]
    simp [hmade, hnone]
  · have hrefused : Invoice.ofDraft draft = .error first := by
      rw [Invoice.ofDraft, hfast]
    have hsome : draft.violations = first :: rest := by
      rw [violations, hall]
    simp [hrefused, hsome]

end InvoiceDraft

end Bindle
