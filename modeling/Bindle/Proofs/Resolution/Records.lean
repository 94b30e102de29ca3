import Bindle.Proofs.Resolution.Settling

/-!
# What a run records

A run keeps three records: the groups that it decided, the questions that it put with their
answers, and the errors of its decisions. They fit together because a group is decided once, and
everything that is recorded of a group is recorded when it is decided. So no group is asked about
twice or has two errors, and the error of a group that was asked about is the one that its answer
called for.

* `Graph.Offers`: what every question is like; `Run.Asks.offers`.
* `Exchange.chosen?`, `Exchange.error?`: what an answer calls for, a parcel or an error.
* `Run.Puts`: what one question changes; `Run.Decides.puts_or_silent` says that a decision puts one
  question or none.
* `Run.IsRecorded`: how the records fit together; each step keeps it (`IsRecorded.step`), so it
  holds throughout a run (`Graph.Passes.isRecorded`).
-/

namespace Bindle

/-! ## Questions -/

namespace Graph

variable {G : Graph} {g : GroupId} {p : ParcelId}

/-- The question is about the group, and its candidates, at least two, are members of the group in
order of declaration. -/
structure Offers (G : Graph) (g : GroupId) (q : Question) : Prop where
  group : G.groupRef g = .named q.group
  several : 2 ≤ q.candidates.length
  ordered : q.candidates.Pairwise fun c d => c.id.index < d.id.index
  members : ∀ c ∈ q.candidates, c.id ∈ G.members g
  labels : ∀ c ∈ q.candidates, ∃ parcel, G.parcel? c.id = some parcel ∧ c.label = parcel.label

theorem Offers.parcelName {q : Question} (h : G.Offers g q) {c : Candidate}
    (hc : c ∈ q.candidates) : G.parcelName c.id = c.name := by
  obtain ⟨parcel, hparcel, hlabel⟩ := h.labels c hc
  rw [parcelName_of_parcel? hparcel, Candidate.name, hlabel, Parcel.name]

/-- A question offers the parcels that it is made of. -/
theorem map_id_candidates {name : GroupName} {ps : List ParcelId}
    (hps : ∀ p ∈ ps, p ∈ G.parcelIds) : (G.question name ps).candidates.map (·.id) = ps := by
  induction ps with
  | nil => rfl
  | cons p rest ih =>
    obtain ⟨parcel, hp⟩ := mem_parcelIds_iff.1 (hps p List.mem_cons_self)
    have hrest := ih fun q hq => hps q (List.mem_cons_of_mem _ hq)
    simp only [question] at hrest ⊢
    rw [List.filterMap_cons_some (by rw [hp, Option.map_some]), List.map_cons, hrest]

/-- The candidates of a question have different names. -/
theorem Offers.nodup_candidateNames (hG : G.invoice.WellFormed) {q : Question}
    (h : G.Offers g q) : q.candidateNames.Nodup := by
  rw [Question.candidateNames, List.Nodup, List.pairwise_map]
  refine h.ordered.imp_of_mem fun {c d} hc hd hlt hname => ?_
  obtain ⟨a, ha, hlabel⟩ := h.labels c hc
  obtain ⟨b, hb, hlabel'⟩ := h.labels d hd
  have hsame : a.name = b.name := by
    rw [Parcel.name, Parcel.name, ← hlabel, ← hlabel']
    exact hname
  have heq : c.id = d.id := parcel?_inj hG ha hb hsame
  rw [heq] at hlt
  exact Nat.lt_irrefl _ hlt

/-- A candidate is the one of its name. -/
theorem Offers.candidate?_eq_some (hG : G.invoice.WellFormed) {q : Question} (h : G.Offers g q)
    {c : Candidate} (hc : c ∈ q.candidates) : q.candidate? c.name = some c := by
  have hsome : (q.candidate? c.name).isSome = true := by
    rw [Question.candidate?, List.find?_isSome]
    exact ⟨c, hc, beq_self_eq_true _⟩
  obtain ⟨d, hd⟩ := Option.isSome_iff_exists.1 hsome
  obtain ⟨hmem, hname⟩ := Question.candidate?_eq_some hd
  rw [hd, List.inj_on_of_nodup_map (h.nodup_candidateNames hG) hmem hc hname]

end Graph

/-! ## Answers -/

namespace Exchange

/-- The candidate that the answer names. -/
def chosen? (e : Exchange) : Option Candidate :=
  e.answer.name?.bind e.question.candidate?

/-- The error that the answer calls for, if it names no candidate. -/
def error? (e : Exchange) : Option ResolutionError :=
  match e.answer with
  | .skip => some (.ambiguous e.question.group.text e.question.candidateNames)
  | .select name =>
    match e.question.candidate? name with
    | some _ => none
    | none => some (.invalidChoice e.question.group.text name)

/-- The answer names a parcel that is no candidate. -/
def IsRefused (e : Exchange) : Prop :=
  ∃ name, e.answer = .select name ∧ e.question.candidate? name = none

variable {e : Exchange}

theorem chosen?_eq_some {c : Candidate} (h : e.chosen? = some c) :
    c ∈ e.question.candidates ∧ e.answer = .select c.name := by
  obtain ⟨name, hname, hfound⟩ := Option.bind_eq_some_iff.1 h
  obtain ⟨hc, rfl⟩ := Question.candidate?_eq_some hfound
  refine ⟨hc, ?_⟩
  cases hanswer : e.answer with
  | skip =>
    rw [hanswer] at hname
    cases hname
  | select other =>
    rw [hanswer] at hname
    rw [Option.some.inj hname]

theorem chosen?_of_answer {c : Candidate} (hanswer : e.answer = .select c.name)
    (hfound : e.question.candidate? c.name = some c) : e.chosen? = some c := by
  rw [chosen?, hanswer]
  exact hfound

theorem chosen?_eq_none (hnone : ∀ c ∈ e.question.candidates, e.answer ≠ .select c.name) :
    e.chosen? = none := by
  cases hchosen : e.chosen? with
  | none => rfl
  | some c =>
    obtain ⟨hc, hanswer⟩ := chosen?_eq_some hchosen
    exact absurd hanswer (hnone c hc)

/-- An answer calls for an error when it names no candidate. -/
theorem error?_eq_none_iff : e.error? = none ↔ ∃ c, e.chosen? = some c := by
  obtain ⟨q, answer⟩ := e
  cases answer with
  | skip => simp [error?, chosen?, Choice.name?]
  | select name => cases hfound : q.candidate? name <;> simp [error?, chosen?, Choice.name?, hfound]

theorem error?_eq_ambiguous {group : String} {candidates : List String}
    (h : e.error? = some (.ambiguous group candidates)) :
    e.answer = .skip ∧ e.question.group.text = group ∧ e.question.candidateNames = candidates := by
  obtain ⟨q, answer⟩ := e
  cases answer with
  | skip =>
    obtain ⟨hgroup, hcandidates⟩ := ResolutionError.ambiguous.inj (Option.some.inj h)
    exact ⟨rfl, hgroup, hcandidates⟩
  | select name => cases hfound : q.candidate? name <;> simp [error?, hfound] at h

/-- A refused answer calls for the one error that is never forgiven. -/
theorem isRefused_iff :
    e.IsRefused ↔ ∃ error, e.error? = some error ∧ error.isForgivable = false := by
  obtain ⟨q, answer⟩ := e
  cases answer with
  | skip => simp [IsRefused, error?, ResolutionError.isForgivable]
  | select name =>
    cases hfound : q.candidate? name <;>
      simp [IsRefused, error?, hfound, ResolutionError.isForgivable]

end Exchange

/-- Each answer is the chooser's, after the exchanges before it. -/
def AnsweredBy (chooser : Chooser) (exchanges : List Exchange) : Prop :=
  ∀ earlier e, earlier ++ [e] <+: exchanges → e.answer = chooser earlier e.question

theorem AnsweredBy.concat {chooser : Chooser} {exchanges : List Exchange}
    (h : AnsweredBy chooser exchanges) {e : Exchange}
    (he : e.answer = chooser exchanges e.question) : AnsweredBy chooser (exchanges ++ [e]) := by
  intro earlier e' hprefix
  rcases List.prefix_concat_iff.1 hprefix with heq | hprefix
  · obtain ⟨hearlier, hlast⟩ := List.append_inj' heq rfl
    rw [hearlier, List.singleton_inj.1 hlast]
    exact he
  · exact h earlier e' hprefix

namespace Run

variable {G : Graph} {chooser : Chooser} {run next : Run} {g g' : GroupId} {e : Exchange}

/-! ## What a question changes -/

theorem Asks.offers {q : Question} (h : run.Asks G g q) : G.Offers g q := by
  obtain ⟨hlen, group, hgroup, rfl⟩ := h
  have hsub : (run.viable G g).Sublist (G.members g) := List.filter_sublist
  have hids : (G.question group.name (run.viable G g)).candidates.map (·.id) = run.viable G g := by
    refine Graph.map_id_candidates fun p hp => ?_
    exact Graph.mem_parcelIds_of_holds (Graph.mem_members.1 (hsub.subset hp))
  refine ⟨Graph.groupRef_of_group? hgroup, ?_, ?_, fun c hc => ?_, fun c hc => ?_⟩
  · rw [← hids, List.length_map] at hlen
    exact hlen
  · have hordered := (Graph.pairwise_members (G := G) (g := g)).sublist hsub
    rw [← hids, List.pairwise_map] at hordered
    exact hordered
  · exact hsub.subset (Graph.mem_candidates.1 hc).1
  · exact (Graph.mem_candidates.1 hc).2

/-- The question was put for the group, and the answer had the effect that it calls for. -/
structure Puts (G : Graph) (chooser : Chooser) (run : Run) (g : GroupId) (e : Exchange)
    (next : Run) : Prop where
  asks : run.Asks G g e.question
  answer : e.answer = chooser run.exchanges e.question
  exchanges : next.exchanges = run.exchanges ++ [e]
  selection : next.selection = e.chosen?.toList.map (·.id) ++ run.selection
  errors : next.errors = run.errors ++ e.error?.toList.map (g, ·)

/-- The decision put no question; it has an error if no parcel may be selected. -/
structure Silent (G : Graph) (run : Run) (g : GroupId) (next : Run) : Prop where
  exchanges : next.exchanges = run.exchanges
  errors : next.errors = run.errors ∨
    next.errors = run.errors ++ [(g, .unsatisfiable (G.groupName g))]

/-- A decision puts one question or none. -/
theorem Decides.puts_or_silent (h : Decides G chooser run g next) :
    (∃ e, Puts G chooser run g e next) ∨ Silent G run g next := by
  cases h with
  | impossible hviable => exact .inr ⟨rfl, .inr rfl⟩
  | sole hviable => exact .inr ⟨rfl, .inl rfl⟩
  | @chosen q name c hasks hanswer hfound =>
    have hchosen : (⟨q, .select name⟩ : Exchange).chosen? = some c := hfound
    have herror : (⟨q, .select name⟩ : Exchange).error? = none :=
      Exchange.error?_eq_none_iff.2 ⟨c, hchosen⟩
    refine .inl ⟨⟨q, .select name⟩, hasks, hanswer.symm, rfl, ?_, ?_⟩
    · rw [hchosen]
      rfl
    · rw [herror, Option.toList_none, List.map_nil, List.append_nil]
      rfl
  | @skipped q hasks hanswer => exact .inl ⟨⟨q, .skip⟩, hasks, hanswer.symm, rfl, rfl, rfl⟩
  | @refused q name hasks hanswer hfound =>
    have hchosen : (⟨q, .select name⟩ : Exchange).chosen? = none := hfound
    have herror : (⟨q, .select name⟩ : Exchange).error? =
        some (.invalidChoice q.group.text name) := by
      simp [Exchange.error?, hfound]
    refine .inl ⟨⟨q, .select name⟩, hasks, hanswer.symm, rfl, ?_, ?_⟩
    · rw [hchosen]
      rfl
    · rw [herror]
      rfl

/-! ## How the records fit together -/

/-- What came of an exchange about the group: the parcel chosen is selected, and the group has the
error that the answer calls for and no other. -/
structure Follows (run : Run) (g : GroupId) (e : Exchange) : Prop where
  selected : ∀ c, e.chosen? = some c → c.id ∈ run.selection
  error : ∀ error, (g, error) ∈ run.errors ↔ e.error? = some error

/-- An error of a decision says that no parcel may be selected, or comes of an exchange. -/
def HasSource (G : Graph) (run : Run) (g : GroupId) (error : ResolutionError) : Prop :=
  error = .unsatisfiable (G.groupName g) ∨
    ∃ e ∈ run.exchanges, G.groupRef g = .named e.question.group ∧ e.error? = some error

/-- How the groups decided, the errors of decisions and the exchanges fit together. -/
structure IsRecorded (G : Graph) (chooser : Chooser) (run : Run) : Prop where
  decided : ∀ g ∈ run.decided, g ∈ run.required ∧ G.policy g = .oneOf
  errors : ∀ g error, (g, error) ∈ run.errors → g ∈ run.decided ∧ run.HasSource G g error
  nodup_errors : (run.errors.map (·.1)).Nodup
  exchanges : ∀ e ∈ run.exchanges, ∃ g ∈ run.decided, G.Offers g e.question ∧ run.Follows g e
  nodup_exchanges : (run.exchanges.map (·.question.group)).Nodup
  answered : AnsweredBy chooser run.exchanges

theorem HasSource.grows {error : ResolutionError} (h : run.HasSource G g error)
    (hgrows : run.Grows next) : next.HasSource G g error := by
  refine h.imp_right ?_
  rintro ⟨e, he, hgroup, herror⟩
  exact ⟨e, hgrows.exchanges.subset he, hgroup, herror⟩

/-- More groups required and more parcels selected leave the records as they are. -/
theorem IsRecorded.of_grows (h : run.IsRecorded G chooser) (hgrows : run.Grows next)
    (hdecided : next.decided = run.decided) (herrors : next.errors = run.errors)
    (hexchanges : next.exchanges = run.exchanges) : next.IsRecorded G chooser := by
  refine ⟨?_, ?_, ?_, ?_, ?_, ?_⟩
  · rw [hdecided]
    exact fun g hg => (h.decided g hg).imp_left fun hreq => hgrows.required hreq
  · rw [hdecided, herrors]
    exact fun g error he => (h.errors g error he).imp_right fun hsource => hsource.grows hgrows
  · rw [herrors]
    exact h.nodup_errors
  · rw [hexchanges, hdecided]
    intro e he
    obtain ⟨g, hg, hoffers, hfollows⟩ := h.exchanges e he
    refine ⟨g, hg, hoffers, fun c hc => hgrows.selection.subset (hfollows.selected c hc), ?_⟩
    rw [herrors]
    exact hfollows.error
  · rw [hexchanges]
    exact h.nodup_exchanges
  · rw [hexchanges]
    exact h.answered

/-- A group that is to be decided has no error yet. -/
theorem IsRecorded.not_mem_errors (h : run.IsRecorded G chooser) (hopen : run.IsOpen G g)
    (error : ResolutionError) : (g, error) ∉ run.errors :=
  fun he => hopen.undecided (h.errors g error he).1

/-- A decision records errors of its own group only. -/
theorem Decides.mem_errors_iff (h : Decides G chooser run g next) (hne : g' ≠ g)
    {error : ResolutionError} : (g', error) ∈ next.errors ↔ (g', error) ∈ run.errors := by
  obtain ⟨-, -, ⟨p, -, -, herrors⟩ | ⟨new, -, herrors⟩⟩ := h.outcome
  · rw [herrors]
  · rw [herrors, List.mem_append, List.mem_singleton, Prod.mk.injEq]
    exact or_iff_left fun heq => hne heq.1

theorem Follows.decides (h : run.Follows g' e) (hdecides : Decides G chooser run g next)
    (hne : g' ≠ g) : next.Follows g' e :=
  ⟨fun c hc => hdecides.grows.selection.subset (h.selected c hc),
    fun error => (hdecides.mem_errors_iff hne).trans (h.error error)⟩

theorem Puts.follows (h : Puts G chooser run g e next) (hnone : ∀ error, (g, error) ∉ run.errors) :
    next.Follows g e := by
  refine ⟨fun c hc => ?_, fun error => ?_⟩
  · rw [h.selection, hc]
    exact List.mem_cons_self
  · rw [h.errors, List.mem_append, or_iff_right (hnone error)]
    simp

/-- The errors after a decision have sources, those of other groups as before. -/
theorem IsRecorded.errors_of_decides (h : run.IsRecorded G chooser)
    (hdecides : Decides G chooser run g next)
    (hgroup : ∀ error, (g, error) ∈ next.errors → next.HasSource G g error)
    (g' : GroupId) (error : ResolutionError)
    (he : (g', error) ∈ next.errors) : g' ∈ next.decided ∧ next.HasSource G g' error := by
  rw [hdecides.outcome.2.1]
  by_cases heq : g' = g
  · subst heq
    exact ⟨List.mem_cons_self, hgroup error he⟩
  · obtain ⟨hdecided, hsource⟩ := h.errors g' error ((hdecides.mem_errors_iff heq).1 he)
    exact ⟨List.mem_cons_of_mem _ hdecided, hsource.grows hdecides.grows⟩

theorem IsRecorded.nodup_errors_of_decides (h : run.IsRecorded G chooser) (hopen : run.IsOpen G g)
    (hdecides : Decides G chooser run g next) : (next.errors.map (·.1)).Nodup := by
  obtain ⟨-, -, ⟨p, -, -, herrors⟩ | ⟨error, -, herrors⟩⟩ := hdecides.outcome
  · rw [herrors]
    exact h.nodup_errors
  · rw [herrors, List.map_append, List.nodup_append]
    refine ⟨h.nodup_errors, List.nodup_singleton _, fun g' hg' g'' hg'' heq => ?_⟩
    obtain ⟨⟨_, other⟩, he, rfl⟩ := List.mem_map.1 hg'
    obtain rfl : g'' = g := List.mem_singleton.1 hg''
    exact h.not_mem_errors hopen other (heq ▸ he)

theorem IsRecorded.exchanges_of_decides (h : run.IsRecorded G chooser) (hopen : run.IsOpen G g)
    (hdecides : Decides G chooser run g next) (he : e ∈ run.exchanges) :
    ∃ g' ∈ next.decided, G.Offers g' e.question ∧ next.Follows g' e := by
  obtain ⟨g', hg', hoffers, hfollows⟩ := h.exchanges e he
  have hne : g' ≠ g := fun heq => hopen.undecided (heq ▸ hg')
  exact ⟨g', hdecides.grows.decided hg', hoffers, hfollows.decides hdecides hne⟩

/-- The group that a question is put for was not asked about before. -/
theorem IsRecorded.not_asked (hG : G.invoice.WellFormed) (h : run.IsRecorded G chooser)
    (hopen : run.IsOpen G g) {q : Question} (hasks : run.Asks G g q) :
    ∀ e ∈ run.exchanges, e.question.group ≠ q.group := by
  intro e he hsame
  obtain ⟨g', hg', hoffers, -⟩ := h.exchanges e he
  have heq : g' = g := Graph.eq_of_groupRef_named hG hoffers.group (hsame ▸ hasks.offers.group)
  exact hopen.undecided (heq ▸ hg')

theorem IsRecorded.decided_of_decides (h : run.IsRecorded G chooser) (hopen : run.IsOpen G g)
    (hdecides : Decides G chooser run g next) :
    ∀ g' ∈ next.decided, g' ∈ next.required ∧ G.policy g' = .oneOf := by
  obtain ⟨hrequired, hdecided, -⟩ := hdecides.outcome
  rw [hrequired, hdecided]
  intro g' hg'
  rcases List.mem_cons.1 hg' with rfl | hg'
  · exact ⟨hopen.required, hopen.oneOf⟩
  · exact h.decided g' hg'

/-- A question keeps the records in order: nothing was recorded of the group before. -/
theorem IsRecorded.puts (hG : G.invoice.WellFormed) (h : run.IsRecorded G chooser)
    (hopen : run.IsOpen G g) (hdecides : Decides G chooser run g next)
    (hputs : Puts G chooser run g e next) : next.IsRecorded G chooser := by
  have hfollows := hputs.follows (h.not_mem_errors hopen)
  refine ⟨h.decided_of_decides hopen hdecides,
    h.errors_of_decides hdecides fun error herror => .inr ⟨e, ?_, hputs.asks.offers.group, ?_⟩,
    h.nodup_errors_of_decides hopen hdecides, ?_, ?_, ?_⟩
  · rw [hputs.exchanges]
    exact List.mem_append_right _ List.mem_cons_self
  · exact (hfollows.error error).1 herror
  · rw [hputs.exchanges]
    intro e' he'
    rcases List.mem_append.1 he' with he' | he'
    · exact h.exchanges_of_decides hopen hdecides he'
    · rw [List.mem_singleton.1 he', hdecides.outcome.2.1]
      exact ⟨g, List.mem_cons_self, hputs.asks.offers, hfollows⟩
  · rw [hputs.exchanges, List.map_append, List.nodup_append]
    refine ⟨h.nodup_exchanges, List.nodup_singleton _, fun name hname name' hname' heq => ?_⟩
    obtain ⟨e', he', rfl⟩ := List.mem_map.1 hname
    exact h.not_asked hG hopen hputs.asks e' he' (heq.trans (List.mem_singleton.1 hname'))
  · rw [hputs.exchanges]
    exact h.answered.concat hputs.answer

/-- So does a decision without a question. -/
theorem IsRecorded.silent (h : run.IsRecorded G chooser) (hopen : run.IsOpen G g)
    (hdecides : Decides G chooser run g next) (hsilent : Silent G run g next) :
    next.IsRecorded G chooser := by
  refine ⟨h.decided_of_decides hopen hdecides,
    h.errors_of_decides hdecides fun error herror => .inl ?_,
    h.nodup_errors_of_decides hopen hdecides, ?_, ?_, ?_⟩
  · rcases hsilent.errors with herrors | herrors
    · exact absurd (herrors ▸ herror) (h.not_mem_errors hopen error)
    · rw [herrors, List.mem_append, or_iff_right (h.not_mem_errors hopen error),
        List.mem_singleton] at herror
      exact congrArg Prod.snd herror
  · rw [hsilent.exchanges]
    exact fun e he => h.exchanges_of_decides hopen hdecides he
  · rw [hsilent.exchanges]
    exact h.nodup_exchanges
  · rw [hsilent.exchanges]
    exact h.answered

/-- One step keeps the records in order. -/
theorem IsRecorded.step (hG : G.invoice.WellFormed) (h : run.IsRecorded G chooser)
    (hstep : Step G chooser run next) : next.IsRecorded G chooser := by
  have hgrows := hstep.grows
  cases hstep with
  | pull => exact h.of_grows hgrows rfl rfl rfl
  | decide hopen hdecides =>
    rcases hdecides.puts_or_silent with ⟨e, hputs⟩ | hsilent
    · exact h.puts hG hopen hdecides hputs
    · exact h.silent hopen hdecides hsilent
  | spread => exact h.of_grows hgrows rfl rfl rfl

theorem isRecorded_start (roots : List GroupId) : (start roots).IsRecorded G chooser := by
  refine ⟨?_, ?_, List.nodup_nil, ?_, List.nodup_nil, ?_⟩
  · intro g hg
    cases hg
  · intro g error he
    cases he
  · intro e he
    cases he
  · intro earlier e hprefix
    have hnil : earlier ++ [e] = [] := List.prefix_nil.1 hprefix
    simp at hnil

end Run

/-- The records of a run are in order throughout. -/
theorem Graph.Passes.isRecorded {G : Graph} {policy : Policy} {chooser : Chooser} {run : Run}
    (hG : G.invoice.WellFormed) (h : G.Passes policy chooser run) : run.IsRecorded G chooser :=
  Run.Reaches.preserves (fun hrun hstep => hrun.step hG hstep) h (Run.isRecorded_start _)

end Bindle
