import Bindle.Proofs.Resolution.Accounts
import Bindle.Proofs.Resolution.Divergence
import Bindle.Proofs.Resolution.Report
import Mathlib.Data.List.Count

/-!
# Answering round by round

A caller that cannot answer at once resolves with the choices recorded so far, looks at what is
reported open, records a choice for it and resolves again. Every round is a new resolution, and
one more choice may change all that happens after it is used. But up to there the new run repeats
the old one, so the question is put again with the same candidates; this time it has an answer,
and the group is never open again. So the rounds come to an end.

* `Graph.ReportsOpen`: a resolution reports that nobody chose; `ReportsOpen.exists_skipped` finds
  the question.
* `Run.exists_answered`: with a choice recorded for it, the question is put again and answered.
* `Graph.Accepts`: how the group comes out then; `accepts_of_answered`.
* `Graph.IsRound`, `Graph.unanswered`: a round answers one more group (`IsRound.unanswered_lt`).
* `Graph.resolve_answers_progress`: no answer is asked for twice, and the rounds come to an end.
-/

namespace Bindle

/-! ## Reported questions -/

/-- With the choices of the map the resolution reports that nobody chose between the candidates. -/
def Graph.ReportsOpen (G : Graph) (policy : Policy) (m : ChoiceMap) (group : String)
    (candidates : List String) : Prop :=
  ∃ errors, (G.resolve policy m.chooser).result = .error errors ∧
    .ambiguous group candidates ∈ errors

namespace Run

variable {G : Graph} {chooser : Chooser} {reading : AnyOfReading} {run : Run} {g : GroupId}
  {group : String} {candidates : List String}

/-- Only a decision reports that nobody chose. -/
theorem errorAtEnd?_ne_ambiguous :
    run.errorAtEnd? G reading g ≠ some (.ambiguous group candidates) := by
  unfold errorAtEnd?
  split
  · simp
  · split <;> simp
  · simp

/-- What is reported open was asked and not answered. -/
theorem IsRecorded.exists_skipped (h : run.IsRecorded G chooser)
    (hopen : .ambiguous group candidates ∈ run.errorsAtEnd G reading) :
    ∃ e ∈ run.exchanges, e.answer = .skip ∧ e.question.group.text = group ∧
      e.question.candidateNames = candidates := by
  rcases of_mem_errorsAtEnd hopen with ⟨g, hmem⟩ | ⟨g, -, hend⟩
  · rcases (h.errors g _ hmem).2 with hsole | ⟨e, he, -, herror⟩
    · cases hsole
    · exact ⟨e, he, Exchange.error?_eq_ambiguous herror⟩
  · exact absurd hend errorAtEnd?_ne_ambiguous

end Run

namespace Graph

variable {G : Graph} {policy : Policy} {m : ChoiceMap} {group c : String}
  {candidates : List String}

/-- Opt-ins that nobody declared are all that such a resolution reports. -/
theorem ReportsOpen.declaresOptIns (hacyclic : G.IsAcyclic)
    (h : G.ReportsOpen policy m group candidates) : G.DeclaresOptIns policy := by
  obtain ⟨errors, hresult, hopen⟩ := h
  by_contra hopt
  rw [resolve_of_not_declaresOptIns hacyclic hopt] at hresult
  rw [← Except.error.inj hresult] at hopen
  obtain ⟨name, hname⟩ := exists_of_mem_unknownOptIns hopen
  cases hname

/-- What a resolution reports open was skipped in its run. -/
theorem ReportsOpen.exists_skipped (hG : G.invoice.WellFormed) (hacyclic : G.IsAcyclic)
    (h : G.ReportsOpen policy m group candidates) :
    ∃ run, G.settledRun policy m.chooser = .ok run ∧ run.IsRecorded G m.chooser ∧
      ∃ e ∈ run.exchanges, e.answer = .skip ∧ e.question.group.text = group ∧
        e.question.candidateNames = candidates := by
  obtain ⟨run, hrun, hpasses, -⟩ := settledRun_eq_ok hacyclic (h.declaresOptIns hacyclic) m.chooser
  obtain ⟨errors, hresult, hopen⟩ := h
  have hrecorded := hpasses.isRecorded hG
  rw [((resolve_eq_error_iff hrun).1 hresult).2] at hopen
  exact ⟨run, hrun, hrecorded, hrecorded.exists_skipped hopen⟩

end Graph

/-! ## Recorded choices -/

/-- A record answers a question by its entry for the group. -/
theorem Run.IsRecorded.answer_eq {G : Graph} {m : ChoiceMap} {run : Run}
    (h : run.IsRecorded G m.chooser) {e : Exchange} (he : e ∈ run.exchanges) :
    e.answer = .ofOption (m.get? e.question.group.text) := by
  obtain ⟨earlier, later, hsplit⟩ := List.append_of_mem he
  exact h.answered earlier e ⟨later, by simp [hsplit]⟩

/-- A record with one more entry differs in the questions about that group. -/
theorem ChoiceMap.group_of_chooser_ne {m : ChoiceMap} {group c : String}
    {earlier : List Exchange} {q : Question}
    (hne : m.chooser earlier q ≠ ChoiceMap.chooser (m.insert group c) earlier q) :
    q.group.text = group := by
  by_contra hother
  refine hne ?_
  rw [chooser, chooser, StringMap.get?_insert, if_neg hother]

namespace Run

variable {G : Graph} {m : ChoiceMap} {run run' : Run} {group c : String} {e : Exchange}

/-- A group without an answer has no entry in the record. -/
theorem IsRecorded.get?_eq_none (h : run.IsRecorded G m.chooser) (he : e ∈ run.exchanges)
    (hskip : e.answer = .skip) : m.get? e.question.group.text = none := by
  have hanswer := h.answer_eq he
  cases hentry : m.get? e.question.group.text with
  | none => rfl
  | some name =>
    rw [hskip, hentry] at hanswer
    cases hanswer

/-- **With a choice recorded for it, the question is put again.** A run that goes by one more
entry puts the question that was skipped for want of it, and the entry is the answer. -/
theorem exists_answered (h : run.IsRecorded G m.chooser)
    (h' : run'.IsRecorded G (ChoiceMap.chooser (m.insert e.question.group.text c)))
    (hsame : run = run' ∨
      Parted m.chooser (ChoiceMap.chooser (m.insert e.question.group.text c)) run run')
    (he : e ∈ run.exchanges) (hskip : e.answer = .skip) :
    ∃ e' ∈ run'.exchanges, e'.question = e.question ∧ e'.answer = .select c := by
  have hentry : (m.insert e.question.group.text c).get? e.question.group.text = some c :=
    StringMap.get?_insert_self ..
  rcases hsame with rfl | ⟨earlier, q, hne, hq, hq'⟩
  · have hanswer := h'.answer_eq he
    rw [hskip, hentry] at hanswer
    cases hanswer
  · have hgroup : q.group = e.question.group :=
      GroupName.text_inj.1 (ChoiceMap.group_of_chooser_ne hne)
    -- the group is asked about once, so this is the question that was skipped
    have hmem : ⟨q, m.chooser earlier q⟩ ∈ run.exchanges :=
      hq.subset (List.mem_append_right _ List.mem_cons_self)
    have hquestion : q = e.question :=
      congrArg Exchange.question (List.inj_on_of_nodup_map h.nodup_exchanges hmem he hgroup)
    have hmem' := hq'.subset (List.mem_append_right _ List.mem_cons_self)
    refine ⟨_, hmem', hquestion, ?_⟩
    show ChoiceMap.chooser _ earlier q = .select c
    rw [ChoiceMap.chooser, hgroup, hentry]
    rfl

end Run

/-! ## Accepted answers -/

/-- The choice of a parcel for the group is accepted: it is the one selected when the resolution
succeeds, and otherwise no error is about the group but that too many are selected, this parcel
among them. -/
structure Graph.Accepts (G : Graph) (policy : Policy) (m : ChoiceMap) (group c : String) :
    Prop where
  success : ∀ manifest, (G.resolve policy m.chooser).result = .ok manifest →
    ∃ r, manifest.group? group = some r ∧ r.selected = [c]
  failure : ∀ errors, (G.resolve policy m.chooser).result = .error errors →
    errorsOn group errors = [] ∨
      ∃ selected, errorsOn group errors = [.overSatisfied group selected] ∧ c ∈ selected

namespace Run

variable {G : Graph} {chooser : Chooser} {reading : AnyOfReading} {run : Run} {g : GroupId}
  {c : String} {e : Exchange}

/-- An answer that names a candidate leaves its group without an error of a decision, and with
that member selected. -/
theorem IsRecorded.exists_chosen (hG : G.invoice.WellFormed) (h : run.IsRecorded G chooser)
    (he : e ∈ run.exchanges) (hanswer : e.answer = .select c)
    (hc : c ∈ e.question.candidateNames) :
    ∃ g ∈ run.required, G.policy g = .oneOf ∧ G.groupRef g = .named e.question.group ∧
      run.errorsOf g = [] ∧
      ∃ p ∈ G.members g, p ∈ run.selection ∧ G.parcelName p = c := by
  obtain ⟨g, hg, hoffers, hfollows⟩ := h.exchanges e he
  obtain ⟨d, hd, rfl⟩ := List.mem_map.1 hc
  have hchosen := Exchange.chosen?_of_answer hanswer (hoffers.candidate?_eq_some hG hd)
  obtain ⟨hrequired, hpolicy⟩ := h.decided g hg
  refine ⟨g, hrequired, hpolicy, hoffers.group, ?_, d.id, hoffers.members d hd,
    hfollows.selected d hchosen, hoffers.parcelName hd⟩
  rw [List.eq_nil_iff_forall_not_mem]
  intro error herror
  have hcalled := (hfollows.error error).1 (mem_errorsOf.1 herror)
  rw [Exchange.error?_eq_none_iff.2 ⟨d, hchosen⟩] at hcalled
  cases hcalled

/-- Without an error of its decision, a group with a selected member can only have too many. -/
theorem errorsOn_of_selected (hG : G.invoice.WellFormed) (htidy : run.Tidy G)
    (h : run.IsRecorded G chooser) (hg : g ∈ run.required) (hpolicy : G.policy g = .oneOf)
    (hnone : run.errorsOf g = []) {p : ParcelId} (hp : p ∈ G.members g)
    (hsel : p ∈ run.selection) :
    errorsOn (G.groupName g) (run.errorsAtEnd G reading) = [] ∨
      ∃ selected, errorsOn (G.groupName g) (run.errorsAtEnd G reading) =
        [.overSatisfied (G.groupName g) selected] ∧ G.parcelName p ∈ selected := by
  cases heval : G.evaluate reading g true run.selection with
  | satisfied =>
    rw [errorsOn_of_satisfied hG htidy hg h heval, hnone]
    exact .inl rfl
  | unsatisfied => exact absurd heval (evaluate_ne_unsatisfied hpolicy hp hsel)
  | overSatisfied =>
    have hnot : G.evaluate reading g true run.selection ≠ .satisfied := by
      rw [heval]
      exact Satisfaction.noConfusion
    refine .inr ⟨G.parcelNames (G.selectedMembers g run.selection), ?_, ?_⟩
    · rw [errorsOn_of_not_satisfied hG htidy hg h hnot]
      simp [errorAtEnd?, heval, hnone]
    · exact List.mem_map_of_mem (Graph.mem_selectedMembers.2 ⟨hp, hsel⟩)

end Run

namespace Graph

variable {G : Graph} {policy : Policy} {m : ChoiceMap} {run : Run} {c : String} {e : Exchange}

/-- An answer that names a candidate is accepted. -/
theorem accepts_of_answered (hG : G.invoice.WellFormed)
    (hrun : G.settledRun policy m.chooser = .ok run) (he : e ∈ run.exchanges)
    (hanswer : e.answer = .select c) (hc : c ∈ e.question.candidateNames) :
    G.Accepts policy m e.question.group.text c := by
  have hpasses := (passes_of_settledRun hrun).1
  have hrecorded := hpasses.isRecorded hG
  obtain ⟨g, hg, hpolicy, hgroup, hnone, p, hp, hsel, rfl⟩ :=
    hrecorded.exists_chosen hG he hanswer hc
  constructor
  · intro manifest hm
    obtain ⟨run', hrun', -, rfl⟩ := resolve_eq_ok_iff.1 hm
    rw [hrun] at hrun'
    cases hrun'
    refine ⟨_, Run.group?_manifest hG (hpasses.tidy.required g hg) hgroup, ?_⟩
    show G.parcelNames (G.selectedMembers g run.selection) = _
    rw [selectedMembers_of_resolve hrun hm hg hpolicy hp hsel]
    rfl
  · intro errors herrors
    rw [((resolve_eq_error_iff hrun).1 herrors).2, ← groupName_of_groupRef hgroup]
    exact Run.errorsOn_of_selected hG hpasses.tidy hrecorded hg hpolicy hnone hp hsel

/-- A question that was reported open is accepted once a choice between its candidates is
recorded. -/
theorem ReportsOpen.accepts (hG : G.invoice.WellFormed) (hacyclic : G.IsAcyclic) {group : String}
    {candidates : List String} (h : G.ReportsOpen policy m group candidates)
    (hc : c ∈ candidates) : G.Accepts policy (m.insert group c) group c := by
  obtain ⟨run, hrun, hrecorded, e, he, hskip, rfl, rfl⟩ := h.exists_skipped hG hacyclic
  obtain ⟨run', hrun', hpasses', -⟩ :=
    settledRun_eq_ok hacyclic (h.declaresOptIns hacyclic)
      (ChoiceMap.chooser (m.insert e.question.group.text c))
  obtain ⟨e', he', hquestion, hanswer⟩ := Run.exists_answered hrecorded
    (hpasses'.isRecorded hG) (settledRun_eq_or_parted hrun hrun') he hskip
  rw [← hquestion] at hc hrun' ⊢
  exact accepts_of_answered hG hrun' he' hanswer hc

/-! ## Rounds -/

/-- In a round a choice is recorded for one group that is reported open, between its candidates. -/
def IsRound (G : Graph) (policy : Policy) (m next : ChoiceMap) : Prop :=
  ∃ group candidates, G.ReportsOpen policy m group candidates ∧
    ∃ c ∈ candidates, next = m.insert group c

/-- The number of groups that accept one parcel. -/
def oneOfCount (G : Graph) : Nat :=
  G.invoice.groups.countP (·.policy == .oneOf)

/-- The number of those without an entry in the record. -/
def unanswered (G : Graph) (m : ChoiceMap) : Nat :=
  G.invoice.groups.countP fun group => group.policy == .oneOf && (m.get? group.name.text).isNone

theorem unanswered_le (m : ChoiceMap) : G.unanswered m ≤ G.oneOfCount :=
  List.countP_mono_left fun _ _ h => (Bool.and_eq_true_iff.1 h).1

theorem countP_lt_countP {α : Type} {l : List α} {p q : α → Bool}
    (hpq : ∀ a ∈ l, p a = true → q a = true) {a : α} (ha : a ∈ l) (hp : p a = false)
    (hq : q a = true) : l.countP p < l.countP q :=
  calc l.countP p = (l.filter q).countP p := by
        rw [List.countP_filter]
        refine List.countP_congr fun b hb => ?_
        rw [Bool.and_eq_true]
        exact ⟨fun h => ⟨h, hpq b hb h⟩, fun h => h.1⟩
    _ < (l.filter q).length := List.countP_lt_length_iff.2 ⟨a, List.mem_filter.2 ⟨ha, hq⟩, hp⟩
    _ = l.countP q := List.countP_eq_length_filter.symm

/-- A round leaves one group less without an entry. -/
theorem IsRound.unanswered_lt (hG : G.invoice.WellFormed) (hacyclic : G.IsAcyclic)
    {next : ChoiceMap} (h : G.IsRound policy m next) : G.unanswered next < G.unanswered m := by
  obtain ⟨_, _, hopen, c, -, rfl⟩ := h
  obtain ⟨run, -, hrecorded, e, he, hskip, rfl, -⟩ := hopen.exists_skipped hG hacyclic
  obtain ⟨g, hg, hoffers, -⟩ := hrecorded.exchanges e he
  obtain ⟨group, hgroup, hname⟩ := groupRef_eq_named_iff.1 hoffers.group
  have hpolicy : group.policy = .oneOf := by
    rw [← policy_of_group? hgroup]
    exact (hrecorded.decided g hg).2
  have hfree : m.get? group.name.text = none := hname ▸ hrecorded.get?_eq_none he hskip
  refine countP_lt_countP (fun other _ hother => ?_) (mem_groups_of_group? hgroup) ?_ ?_
  · -- what has an entry keeps it
    rw [StringMap.get?_insert] at hother
    split at hother
    · simp at hother
    · exact hother
  · simp [hname, StringMap.get?_insert_self]
  · simp [hpolicy, hfree]

theorem unanswered_add_le (hG : G.invoice.WellFormed) (hacyclic : G.IsAcyclic)
    {rounds : Nat → ChoiceMap} {k : Nat}
    (hround : ∀ n < k, G.IsRound policy (rounds n) (rounds (n + 1))) :
    G.unanswered (rounds k) + k ≤ G.unanswered (rounds 0) := by
  induction k with
  | zero => exact Nat.le_refl _
  | succ k ih =>
    have hlt := (hround k (Nat.lt_succ_self k)).unanswered_lt hG hacyclic
    have hle := ih fun n hn => hround n (Nat.lt_succ_of_lt hn)
    omega

/-- **Answering round by round makes progress.** A group that is reported open has no choice
recorded, and a choice between its candidates is accepted once it is recorded. So when in every
round a choice is recorded for some group that is reported open, no group is reported open any
more after at most as many rounds as there are groups that accept one parcel. -/
theorem resolve_answers_progress {i : Invoice} (hi : i.IsValid) (hG : Graph.build i = .ok G)
    (policy : Policy) :
    (∀ m group candidates, G.ReportsOpen policy m group candidates →
      m.get? group = none ∧ candidates ≠ [] ∧
        ∀ c ∈ candidates, G.Accepts policy (m.insert group c) group c) ∧
    ∀ rounds : Nat → ChoiceMap,
      (∀ n, (∃ group candidates, G.ReportsOpen policy (rounds n) group candidates) →
        G.IsRound policy (rounds n) (rounds (n + 1))) →
      ∃ k ≤ G.oneOfCount, ∀ group candidates,
        ¬G.ReportsOpen policy (rounds k) group candidates := by
  have hwf := wellFormed_of_build hi hG
  have hacyclic : G.IsAcyclic := (build_eq_ok_iff.1 hG).2
  constructor
  · intro m group candidates hopen
    refine ⟨?_, ?_, fun c hc => hopen.accepts hwf hacyclic hc⟩
    · obtain ⟨run, -, hrecorded, e, he, hskip, rfl, -⟩ := hopen.exists_skipped hwf hacyclic
      exact hrecorded.get?_eq_none he hskip
    · obtain ⟨run, -, hrecorded, e, he, -, -, rfl⟩ := hopen.exists_skipped hwf hacyclic
      obtain ⟨g, -, hoffers, -⟩ := hrecorded.exchanges e he
      intro hnil
      have hseveral := hoffers.several
      rw [List.map_eq_nil_iff.1 hnil] at hseveral
      simp at hseveral
  · intro rounds hanswered
    by_contra hall
    have hopen : ∀ n ≤ G.oneOfCount,
        ∃ group candidates, G.ReportsOpen policy (rounds n) group candidates := by
      intro n hn
      by_contra hnone
      exact hall ⟨n, hn, fun group candidates h => hnone ⟨group, candidates, h⟩⟩
    have hrounds := unanswered_add_le hwf hacyclic fun n hn =>
      hanswered n (hopen n (Nat.lt_succ_iff.1 hn))
    have hbound := unanswered_le (G := G) (rounds 0)
    omega

end Graph

namespace Worked

/-- Nothing is recorded at first, then the second tool. -/
def rounds : Nat → ChoiceMap
  | 0 => .empty
  | _ + 1 => .insert .empty "cli" "second"

theorem reportsOpen_rounds : graph.ReportsOpen policy (rounds 0) "cli" ["first", "second"] :=
  ⟨[.ambiguous "cli" ["first", "second"], .unsatisfiable "utility"], by decide +kernel, by simp⟩

/-- Once it is recorded the second tool is accepted, and no tool is asked for any more; only the
server is left without a utility. -/
theorem rounds_settle :
    (rounds 0).get? "cli" = none ∧ graph.Accepts policy (rounds 1) "cli" "second" ∧
      ∃ k ≤ 1, ∀ group candidates, ¬graph.ReportsOpen policy (rounds k) group candidates := by
  obtain ⟨haccepts, hrounds⟩ := Graph.resolve_answers_progress isValid build_eq policy
  obtain ⟨hnone, -, hchoice⟩ := haccepts _ _ _ reportsOpen_rounds
  refine ⟨hnone, hchoice "second" (by simp), ?_⟩
  obtain ⟨k, hk, hdone⟩ := hrounds rounds fun n hopen => by
    cases n with
    | zero => exact ⟨"cli", _, reportsOpen_rounds, "second", by simp, rfl⟩
    | succ n =>
      have herrors : (graph.resolve policy (ChoiceMap.chooser (rounds (n + 1)))).result =
          .error [.unsatisfiable "utility"] := by
        show (graph.resolve policy (ChoiceMap.chooser (rounds 1))).result = _
        decide +kernel
      obtain ⟨_, _, errors, herr, hmem⟩ := hopen
      rw [herrors] at herr
      cases herr
      simp at hmem
  exact ⟨k, Nat.le_trans hk (by decide +kernel), hdone⟩

end Worked

end Bindle
