import Bindle.Proofs.Resolution.Records
import Bindle.Proofs.Resolution.Verdict

/-!
# Which errors a resolution reports

A resolution reports errors from two places: those of decisions that still stand, and those of
groups judged at the end. Together they account for each required group exactly once. A group
that the selection does not satisfy has one error, whichever place it is from, because an error
of its decision takes the place of the one at the end. A group with too many parcels has one that
lists them, besides that of its decision. A satisfied group has none, unless an answer about it
was refused. No other group has any.

* `ResolutionError.group?`, `errorsOn`: errors by the group that they are about.
* `Run.errorsOf`: the errors of a group's decision, of which there is at most one.
* `Run.errorsOn_errorsAtEnd`: the errors about one required group, from both places.
* `Graph.Accounts`: the account that is given; `Run.accounts_errorsAtEnd`.
* `Graph.resolve_accounts`: when a resolution succeeds, and what its errors are otherwise.
-/

namespace Bindle

/-! ## Errors by group -/

/-- The name of the group that an error is about; a cycle is about no single group. -/
def ResolutionError.group? : ResolutionError → Option String
  | .unsatisfiable group => some group
  | .overSatisfied group _ => some group
  | .ambiguous group _ => some group
  | .invalidChoice group _ => some group
  | .unknownGroup group => some group
  | .cycle _ => none

/-- The errors that a decision about the group may end in. -/
inductive ResolutionError.IsOfDecision (group : String) : ResolutionError → Prop
  | unsatisfiable : IsOfDecision group (.unsatisfiable group)
  | ambiguous (candidates : List String) : IsOfDecision group (.ambiguous group candidates)
  | invalidChoice (parcel : String) : IsOfDecision group (.invalidChoice group parcel)

/-- The errors about the group of that name, in order. -/
def errorsOn (group : String) (errors : List ResolutionError) : List ResolutionError :=
  errors.filter (·.group? == some group)

theorem ResolutionError.IsOfDecision.group? {group : String} {error : ResolutionError}
    (h : error.IsOfDecision group) : error.group? = some group := by
  cases h with
  | unsatisfiable => rfl
  | ambiguous _ => rfl
  | invalidChoice _ => rfl

theorem ResolutionError.IsOfDecision.eq_invalidChoice {group : String} {error : ResolutionError}
    (h : error.IsOfDecision group) (hstands : error.isForgivable = false) :
    ∃ parcel, error = .invalidChoice group parcel := by
  cases h with
  | unsatisfiable => cases hstands
  | ambiguous _ => cases hstands
  | invalidChoice parcel => exact ⟨parcel, rfl⟩

theorem Exchange.isOfDecision {e : Exchange} {error : ResolutionError}
    (h : e.error? = some error) : error.IsOfDecision e.question.group.text := by
  obtain ⟨q, answer⟩ := e
  cases answer with
  | skip =>
    rw [← Option.some.inj h]
    exact .ambiguous _
  | select name =>
    cases hfound : q.candidate? name with
    | some c => simp [error?, hfound] at h
    | none =>
      simp only [error?, hfound, Option.some.injEq] at h
      rw [← h]
      exact .invalidChoice _

theorem eq_nil_or_singleton_of_length_le_one {α : Type} {l : List α} (h : l.length ≤ 1) :
    l = [] ∨ ∃ a, l = [a] := by
  match l, h with
  | [], _ => exact .inl rfl
  | [a], _ => exact .inr ⟨a, rfl⟩

/-- What a list yields of one kind, the elements of one sort yield. -/
theorem filter_filterMap_of_sort {α β : Type} {l : List α} {f : α → Option β} {kind : β → Bool}
    {sort : α → Bool} (hkind : ∀ a b, f a = some b → a ∈ l → (kind b = true ↔ sort a = true)) :
    (l.filterMap f).filter kind = (l.filter sort).filterMap f := by
  rw [List.filter_filterMap, List.filterMap_filter]
  refine List.filterMap_congr fun a ha => ?_
  cases hfa : f a with
  | none => simp
  | some b => rw [Option.filter_some, Bool.eq_iff_iff.2 (hkind a b hfa ha)]

/-- Among what a list without repetition yields, one kind comes from one element. -/
theorem filter_filterMap_of_nodup {α β : Type} [DecidableEq α] {l : List α} (hl : l.Nodup) {a : α}
    (ha : a ∈ l) {f : α → Option β} {kind : β → Bool}
    (hkind : ∀ x b, f x = some b → x ∈ l → (kind b = true ↔ x = a)) :
    (l.filterMap f).filter kind = (f a).toList := by
  have hsort : ∀ x b, f x = some b → x ∈ l → (kind b = true ↔ (x == a) = true) := by
    intro x b hfx hx
    rw [beq_iff_eq]
    exact hkind x b hfx hx
  rw [filter_filterMap_of_sort hsort, List.filter_beq, List.count_eq_one_of_mem hl ha]
  cases hfa : f a <;> simp [hfa]

namespace Run

variable {G : Graph} {chooser : Chooser} {reading : AnyOfReading} {run : Run} {g : GroupId}
  {error : ResolutionError}

/-! ## Errors of one decision -/

/-- The errors of decisions about the group. -/
def errorsOf (run : Run) (g : GroupId) : List ResolutionError :=
  (run.errors.filter (·.1 == g)).map (·.2)

theorem mem_errorsOf : error ∈ run.errorsOf g ↔ (g, error) ∈ run.errors := by
  simp [errorsOf]

theorem hasError_iff : run.hasError g = true ↔ run.errorsOf g ≠ [] := by
  simp [hasError, errorsOf]

/-- A group is decided once, so its decision has at most one error. -/
theorem IsRecorded.length_errorsOf_le (h : run.IsRecorded G chooser) (g : GroupId) :
    (run.errorsOf g).length ≤ 1 := by
  have hcount : (run.errors.map (·.1)).count g ≤ 1 :=
    List.nodup_iff_count_le_one.1 h.nodup_errors g
  rw [List.count, List.countP_map, List.countP_eq_length_filter] at hcount
  rw [errorsOf, List.length_map]
  exact hcount

theorem HasSource.isOfDecision (h : run.HasSource G g error) :
    error.IsOfDecision (G.groupName g) := by
  rcases h with rfl | ⟨e, -, hgroup, herror⟩
  · exact .unsatisfiable
  · rw [Graph.groupName_of_groupRef hgroup]
    exact Exchange.isOfDecision herror

theorem IsRecorded.isOfDecision (h : run.IsRecorded G chooser) (he : (g, error) ∈ run.errors) :
    error.IsOfDecision (G.groupName g) :=
  (h.errors g error he).2.isOfDecision

theorem IsRecorded.mem_required (h : run.IsRecorded G chooser) (he : (g, error) ∈ run.errors) :
    g ∈ run.required :=
  (h.decided g (h.errors g error he).1).1

/-! ## Errors about one group -/

/-- What is wrong with a group at the end is said of that group. -/
theorem group?_of_errorAtEnd? (h : run.errorAtEnd? G reading g = some error) :
    error.group? = some (G.groupName g) := by
  unfold errorAtEnd? at h
  split at h
  · cases h
  · split at h
    · cases h
    · rw [← Option.some.inj h]
      rfl
  · rw [← Option.some.inj h]
    rfl

variable (hG : G.invoice.WellFormed) (htidy : run.Tidy G) (hg : g ∈ run.required)

include hG htidy hg

/-- A required group is judged once at the end. -/
theorem errorsOn_errorAtEnd? :
    errorsOn (G.groupName g)
        ((G.groupIds.filter (run.required.contains ·)).filterMap (run.errorAtEnd? G reading)) =
      (run.errorAtEnd? G reading g).toList := by
  have hid := htidy.required g hg
  refine filter_filterMap_of_nodup (Graph.nodup_groupIds.filter _)
    (List.mem_filter.2 ⟨hid, List.contains_iff_mem.2 hg⟩) fun g' error herror hg' => ?_
  rw [group?_of_errorAtEnd? herror, beq_iff_eq, Option.some.injEq]
  refine ⟨fun hname => Graph.groupName_inj hG (List.mem_filter.1 hg').1 hid hname, ?_⟩
  rintro rfl
  rfl

variable (h : run.IsRecorded G chooser)

include h

/-- An error about a required group stands unless the group is satisfied and the error is
forgiven. -/
theorem errorsOn_standingErrors :
    errorsOn (G.groupName g) (run.standingErrors G reading) =
      (run.errorsOf g).filter fun error =>
        !(G.isSatisfied reading g true run.selection && error.isForgivable) := by
  unfold errorsOn standingErrors errorsOf
  rw [List.filter_map, List.filter_filter, List.filter_map, List.filter_filter]
  refine congrArg _ (List.filter_congr ?_)
  rintro ⟨g', error⟩ he
  have hgroup : error.group? = some (G.groupName g') := (h.isOfDecision he).group?
  have hg' : g' ∈ run.required := h.mem_required he
  by_cases heq : g' = g
  · subst heq
    simp [hgroup, isSettled, hg']
  · have hgroupNe : (g' == g) = false := beq_false_of_ne heq
    have hnameNe : (G.groupName g' == G.groupName g) = false := by
      refine beq_false_of_ne fun hname => heq ?_
      exact Graph.groupName_inj hG (htidy.required g' hg') (htidy.required g hg) hname
    simp [hgroup, hgroupNe, hnameNe]

/-- The errors about a required group: that of its decision, if it stands, and what is wrong with
the group at the end. -/
theorem errorsOn_errorsAtEnd :
    errorsOn (G.groupName g) (run.errorsAtEnd G reading) =
      ((run.errorsOf g).filter fun error =>
        !(G.isSatisfied reading g true run.selection && error.isForgivable)) ++
          (run.errorAtEnd? G reading g).toList := by
  rw [errorsAtEnd, errorsOn, List.filter_append]
  exact congrArg₂ _ (errorsOn_standingErrors hG htidy hg h) (errorsOn_errorAtEnd? hG htidy hg)

/-- While a group is not satisfied, the error of its decision stands. -/
theorem errorsOn_of_not_satisfied
    (hnot : G.evaluate reading g true run.selection ≠ .satisfied) :
    errorsOn (G.groupName g) (run.errorsAtEnd G reading) =
      run.errorsOf g ++ (run.errorAtEnd? G reading g).toList := by
  have hunsatisfied : G.isSatisfied reading g true run.selection = false := by
    simpa [Graph.isSatisfied] using hnot
  rw [errorsOn_errorsAtEnd hG htidy hg h]
  simp [hunsatisfied]

/-- A satisfied group keeps only the error of an answer that was refused. -/
theorem errorsOn_of_satisfied (hsatisfied : G.evaluate reading g true run.selection = .satisfied) :
    errorsOn (G.groupName g) (run.errorsAtEnd G reading) =
      (run.errorsOf g).filter (!·.isForgivable) := by
  rw [errorsOn_errorsAtEnd hG htidy hg h]
  simp [Graph.isSatisfied, errorAtEnd?, hsatisfied]

end Run

/-! ## The account -/

/-- The errors give an exact account of the required groups of a settled run. -/
structure Graph.Accounts (G : Graph) (reading : AnyOfReading) (run : Run)
    (errors : List ResolutionError) : Prop where
  satisfied : ∀ g ∈ run.required, G.evaluate reading g true run.selection = .satisfied →
    errorsOn (G.groupName g) errors = [] ∨
      ∃ parcel, errorsOn (G.groupName g) errors = [.invalidChoice (G.groupName g) parcel]
  unsatisfied : ∀ g ∈ run.required, G.evaluate reading g true run.selection = .unsatisfied →
    ∃ error, errorsOn (G.groupName g) errors = [error] ∧ error.IsOfDecision (G.groupName g)
  overSatisfied : ∀ g ∈ run.required, G.evaluate reading g true run.selection = .overSatisfied →
    ∃ earlier ps, errorsOn (G.groupName g) errors =
        earlier ++ [.overSatisfied (G.groupName g) (G.parcelNames ps)] ∧
      (ps.Pairwise (·.index < ·.index) ∧ ∀ p, p ∈ ps ↔ p ∈ G.members g ∧ p ∈ run.selection) ∧
      earlier.length ≤ 1 ∧
      ∀ error ∈ earlier, (g, error) ∈ run.errors ∧ error.IsOfDecision (G.groupName g)
  required : ∀ error ∈ errors, ∃ g ∈ run.required, error.group? = some (G.groupName g)

namespace Run

variable {G : Graph} {chooser : Chooser} {reading : AnyOfReading} {run : Run} {g : GroupId}
  {error : ResolutionError}

theorem exists_group_of_mem_errorsAtEnd (h : run.IsRecorded G chooser)
    (he : error ∈ run.errorsAtEnd G reading) :
    ∃ g ∈ run.required, error.group? = some (G.groupName g) := by
  rcases of_mem_errorsAtEnd he with ⟨g, hmem⟩ | ⟨g, hg, hend⟩
  · exact ⟨g, h.mem_required hmem, (h.isOfDecision hmem).group?⟩
  · exact ⟨g, hg, group?_of_errorAtEnd? hend⟩

/-- The errors at the end of a run account for its required groups. -/
theorem accounts_errorsAtEnd (hG : G.invoice.WellFormed) (htidy : run.Tidy G)
    (h : run.IsRecorded G chooser) : G.Accounts reading run (run.errorsAtEnd G reading) where
  satisfied := by
    intro g hg hsatisfied
    rw [errorsOn_of_satisfied hG htidy hg h hsatisfied]
    have hlen : ((run.errorsOf g).filter (!·.isForgivable)).length ≤ 1 :=
      (List.length_filter_le _ _).trans (h.length_errorsOf_le g)
    rcases eq_nil_or_singleton_of_length_le_one hlen with hnil | ⟨error, hone⟩
    · exact .inl hnil
    · have hmem : error ∈ (run.errorsOf g).filter (!·.isForgivable) := by
        rw [hone]
        exact List.mem_cons_self
      obtain ⟨hof, hstands⟩ := List.mem_filter.1 hmem
      obtain ⟨parcel, rfl⟩ :=
        (h.isOfDecision (mem_errorsOf.1 hof)).eq_invalidChoice (by simpa using hstands)
      exact .inr ⟨parcel, hone⟩
  unsatisfied := by
    intro g hg hunsatisfied
    have hnot : G.evaluate reading g true run.selection ≠ .satisfied := by
      rw [hunsatisfied]
      exact Satisfaction.noConfusion
    rw [errorsOn_of_not_satisfied hG htidy hg h hnot]
    rcases eq_nil_or_singleton_of_length_le_one (h.length_errorsOf_le g) with
      hnil | ⟨error, hone⟩
    · have hfree : run.hasError g = false := by
        rw [Bool.eq_false_iff, ne_eq, hasError_iff, hnil]
        simp
      refine ⟨.unsatisfiable (G.groupName g), ?_, .unsatisfiable⟩
      simp [errorAtEnd?, hunsatisfied, hfree, hnil]
    · have hfailed : run.hasError g = true := by
        rw [hasError_iff, hone]
        exact List.cons_ne_nil _ _
      refine ⟨error, ?_, h.isOfDecision (mem_errorsOf.1 (hone ▸ List.mem_cons_self))⟩
      simp [errorAtEnd?, hunsatisfied, hfailed, hone]
  overSatisfied := by
    intro g hg hover
    have hnot : G.evaluate reading g true run.selection ≠ .satisfied := by
      rw [hover]
      exact Satisfaction.noConfusion
    refine ⟨run.errorsOf g, G.selectedMembers g run.selection, ?_,
      ⟨Graph.pairwise_members.filter _, fun p => Graph.mem_selectedMembers⟩,
      h.length_errorsOf_le g, fun error he => ?_⟩
    · rw [errorsOn_of_not_satisfied hG htidy hg h hnot]
      simp [errorAtEnd?, hover]
    · exact ⟨mem_errorsOf.1 he, h.isOfDecision (mem_errorsOf.1 he)⟩
  required := fun _ he => exists_group_of_mem_errorsAtEnd h he

/-- A refused answer leaves an error that is never forgiven. -/
theorem IsRecorded.exists_error_of_isRefused (h : run.IsRecorded G chooser) {e : Exchange}
    (he : e ∈ run.exchanges) (hrefused : e.IsRefused) :
    ∃ g error, (g, error) ∈ run.errors ∧ error.isForgivable = false := by
  obtain ⟨error, herror, hstands⟩ := Exchange.isRefused_iff.1 hrefused
  obtain ⟨g, -, -, hfollows⟩ := h.exchanges e he
  exact ⟨g, error, (hfollows.error error).2 herror, hstands⟩

/-- Without refused answers every error of a decision can be forgiven. -/
theorem IsRecorded.isForgivable (h : run.IsRecorded G chooser)
    (hnone : ∀ e ∈ run.exchanges, ¬e.IsRefused) (he : (g, error) ∈ run.errors) :
    error.isForgivable = true := by
  rcases (h.errors g error he).2 with rfl | ⟨e, hmem, -, herror⟩
  · rfl
  · by_contra hstands
    exact hnone e hmem (Exchange.isRefused_iff.2 ⟨error, herror, by simpa using hstands⟩)

theorem evaluate_eq_satisfied_iff :
    G.evaluate reading g true run.selection = .satisfied ↔
      G.Fulfils reading {p | p ∈ run.selection} g := by
  rw [← Graph.isSatisfied_iff, Graph.isSatisfied, beq_iff_eq]

/-- A settled run has no errors exactly when every required group is satisfied and no answer was
refused. -/
theorem errorsAtEnd_eq_nil_iff_of_isRecorded (htidy : run.Tidy G) (h : run.IsRecorded G chooser) :
    run.errorsAtEnd G reading = [] ↔
      (∀ g ∈ run.required, G.evaluate reading g true run.selection = .satisfied) ∧
        ∀ e ∈ run.exchanges, ¬e.IsRefused := by
  rw [errorsAtEnd_eq_nil_iff htidy]
  simp only [evaluate_eq_satisfied_iff]
  constructor
  · rintro ⟨hforgiven, hfulfils⟩
    refine ⟨hfulfils, fun e he hrefused => ?_⟩
    obtain ⟨g, error, hmem, hstands⟩ := h.exists_error_of_isRefused he hrefused
    rw [(hforgiven _ hmem).2] at hstands
    cases hstands
  · rintro ⟨hfulfils, hnone⟩
    refine ⟨?_, hfulfils⟩
    rintro ⟨g, error⟩ he
    have hrequired := h.mem_required he
    exact ⟨isSettled_iff.2 ⟨hrequired, hfulfils g hrequired⟩, h.isForgivable hnone he⟩

end Run

namespace Graph

variable {G : Graph} {policy : Policy} {chooser : Chooser} {run : Run}

theorem resolve_eq_error_iff {errors : List ResolutionError}
    (hrun : G.settledRun policy chooser = .ok run) :
    (G.resolve policy chooser).result = .error errors ↔
      run.errorsAtEnd G policy.anyOf ≠ [] ∧ errors = run.errorsAtEnd G policy.anyOf := by
  rw [resolve, hrun]
  dsimp only
  unfold conclude
  cases run.errorsAtEnd G policy.anyOf <;> simp [eq_comm]

/-- **Errors are accounted for exactly.** However the chooser answers, a resolution of a graph
without a cycle succeeds if and only if every group required in the end is satisfied by the
selection and no answer was refused. Otherwise its errors are one for each required group that is
unsatisfied; one with the selected members for each that has too many, after that of its decision
if there is any; and for a satisfied one at most that of a refused answer. -/
theorem resolve_accounts {i : Invoice} (hi : i.IsValid) (hG : Graph.build i = .ok G)
    (hopt : G.DeclaresOptIns policy) (chooser : Chooser) :
    ∃ run, G.settledRun policy chooser = .ok run ∧
      ((∃ m, (G.resolve policy chooser).result = .ok m) ↔
        (∀ g ∈ run.required, G.evaluate policy.anyOf g true run.selection = .satisfied) ∧
          ∀ e ∈ (G.resolve policy chooser).exchanges, ¬e.IsRefused) ∧
      ∀ errors, (G.resolve policy chooser).result = .error errors →
        G.Accounts policy.anyOf run errors := by
  obtain ⟨rfl, hacyclic⟩ := build_eq_ok_iff.1 hG
  obtain ⟨run, hrun, hpasses, -⟩ := settledRun_eq_ok hacyclic hopt chooser
  have hrecorded := hpasses.isRecorded hi.wellFormed
  refine ⟨run, hrun, ?_, fun errors herrors => ?_⟩
  · rw [exchanges_resolve hrun, ← Run.errorsAtEnd_eq_nil_iff_of_isRecorded hpasses.tidy hrecorded]
    constructor
    · rintro ⟨m, hm⟩
      obtain ⟨run', hrun', hnil, -⟩ := resolve_eq_ok_iff.1 hm
      rw [hrun] at hrun'
      cases hrun'
      exact hnil
    · intro hnil
      exact ⟨_, resolve_eq_ok_iff.2 ⟨run, hrun, hnil, rfl⟩⟩
  · rw [((resolve_eq_error_iff hrun).1 herrors).2]
    exact Run.accounts_errorsAtEnd hi.wellFormed hpasses.tidy hrecorded

end Graph

/-- A tool is asked for that is no candidate: the choice of a tool stands refused, and the server
has no utility. -/
theorem Worked.accounts_refused :
    ∃ run, graph.settledRun policy (.inOrder [some "third"]) = .ok run ∧
      graph.Accounts policy.anyOf run
        [.invalidChoice "cli" "third", .unsatisfiable "utility"] := by
  obtain ⟨run, hrun, -, haccounts⟩ :=
    Graph.resolve_accounts isValid build_eq declaresOptIns (.inOrder [some "third"])
  exact ⟨run, hrun, haccounts _ (by decide +kernel)⟩

end Bindle
