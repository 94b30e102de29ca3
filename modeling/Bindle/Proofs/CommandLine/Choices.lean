import Bindle.Proofs.CommandLine.Precedence
import Bindle.Proofs.Invoice.Schema
import Bindle.Proofs.Resolution.Rounds

/-!
# Choices on the command line

A resolution that fails reports the groups for which several parcels could be selected, and the
choice of one of them can be given on the command line, as the name of the group, an equals sign
and the name of the parcel. The argument is divided at its first equals sign and both parts are
trimmed. Names of groups are trimmed anyway, but may have an equals sign in them; names of parcels
may have blanks around them. So a choice is read back as it is meant exactly when neither is the
case, and then it is accepted.

* `choiceText`: the argument that gives a choice.
* `parseChoice?_choiceText_eq_iff`: which choices are read back as they are meant.
* `Invocation.accepts_reported`: a reported candidate is accepted when it is passed back.
-/

namespace Bindle

/-- No parcel of a valid invoice has a blank name. -/
theorem Invoice.IsValid.trim_name_ne {i : Invoice} (hi : i.IsValid) {p : Parcel}
    (hp : p ∈ i.parcels) : Text.trim p.name ≠ "" := by
  obtain ⟨draft, hdraft⟩ := hi
  obtain ⟨hcomplete, hdescribes, -⟩ := ofDraft_eq_ok_iff.1 hdraft
  have hmem : p.name ∈ i.parcels.map (·.name) := List.mem_map_of_mem hp
  rw [hdescribes.parcelNames_eq] at hmem
  obtain ⟨parcel, hparcel, hname⟩ := List.mem_map.1 hmem
  rw [← hname]
  exact (hcomplete.labels parcel hparcel).name

namespace CommandLine

/-! ## Reading choices -/

section Reading

variable {parcel : String} {g : GroupName}

/-- The argument that gives a choice for a group. -/
def choiceText (group parcel : String) : String :=
  group ++ "=" ++ parcel

/-- The name of a group is read back up to an equals sign in it, that of a parcel is trimmed. -/
theorem parseChoice?_choiceText (h : '=' ∉ g.text.toList) (hparcel : Text.trim parcel ≠ "") :
    parseChoice? (choiceText g.text parcel) = some (g.text, Text.trim parcel) := by
  have htext : (choiceText g.text parcel).toList = g.text.toList ++ '=' :: parcel.toList := by
    simp [choiceText]
  rw [parseChoice?_of_toList htext h, String.ofList_toList, String.ofList_toList, g.trimmed,
    if_neg (by simp [g.ne_empty, hparcel])]

/-- With an equals sign in its name, a group is cut short. -/
theorem not_mem_of_parseChoice? {other : String}
    (h : parseChoice? (choiceText g.text parcel) = some (g.text, other)) :
    '=' ∉ g.text.toList := by
  intro hmem
  obtain ⟨front, back, hsplit, hfront⟩ := List.eq_append_cons_of_mem hmem
  have htext : (choiceText g.text parcel).toList =
      front ++ '=' :: (back ++ '=' :: parcel.toList) := by
    simp [choiceText, hsplit]
  rw [parseChoice?_of_toList htext hfront] at h
  split at h
  · cases h
  · have hcut : Text.trim (String.ofList front) = g.text :=
      congrArg Prod.fst (Option.some.inj h)
    have hlong := congrArg List.length hsplit
    have hshort := Text.length_trimChars_le front
    rw [← hcut, Text.toList_trim, String.toList_ofList] at hlong
    simp only [List.length_append, List.length_cons] at hlong
    omega

/-- A choice is read back as it is meant exactly when the group has no equals sign in its name and
the parcel no blanks around its own. -/
theorem parseChoice?_choiceText_eq_iff (hparcel : Text.trim parcel ≠ "") :
    parseChoice? (choiceText g.text parcel) = some (g.text, parcel) ↔
      '=' ∉ g.text.toList ∧ Text.trim parcel = parcel := by
  constructor
  · intro h
    have hgroup := not_mem_of_parseChoice? h
    rw [parseChoice?_choiceText hgroup hparcel] at h
    exact ⟨hgroup, congrArg Prod.snd (Option.some.inj h)⟩
  · rintro ⟨hgroup, htrim⟩
    rw [parseChoice?_choiceText hgroup hparcel, htrim]

end Reading

/-! ## Passing back what is reported -/

namespace ResolveArguments

variable {a : ResolveArguments} {files : Files} {m : ChoiceMap}

/-- The arguments with one more choice. -/
def withChoice (a : ResolveArguments) (group parcel : String) : ResolveArguments :=
  { a with choose := a.choose ++ [(group, parcel)] }

theorem loadChoices_eq {recorded : ChoiceMap} (h : a.recordedChoices files = .ok recorded) :
    a.loadChoices files = .ok (recorded.extend (.ofList a.choose)) := by
  rw [loadChoices, h]
  rfl

/-- One more choice has the effect of recording it after all others. -/
theorem exists_loadChoices_withChoice (h : a.loadChoices files = .ok m) (group parcel : String) :
    ∃ m', (a.withChoice group parcel).loadChoices files = .ok m' ∧
      m'.chooser = ChoiceMap.chooser (m.insert group parcel) := by
  cases hrecorded : a.recordedChoices files with
  | error causes =>
    rw [loadChoices, hrecorded] at h
    cases h
  | ok recorded =>
    have hrecorded' : (a.withChoice group parcel).recordedChoices files = .ok recorded := hrecorded
    rw [loadChoices_eq hrecorded] at h
    cases h
    refine ⟨_, loadChoices_eq hrecorded', ?_⟩
    funext earlier q
    simp only [ChoiceMap.chooser, StringMap.get?_insert, StringMap.get?_extend,
      StringMap.get?_ofList_eq, withChoice, List.reverse_append, List.reverse_singleton,
      List.singleton_append, List.lookup_cons]
    by_cases hkey : q.group.text = group
    · simp [hkey]
    · simp [hkey, beq_eq_false_iff_ne.2 hkey]

end ResolveArguments

end CommandLine

namespace Graph

variable {G : Graph} {policy : Policy} {m m' : ChoiceMap} {group c : String}
  {candidates : List String}

/-- What is accepted depends on the answers that are recorded, not on how. -/
theorem Accepts.congr (hsame : m'.chooser = m.chooser) (h : G.Accepts policy m group c) :
    G.Accepts policy m' group c := by
  refine ⟨?_, ?_⟩ <;> rw [hsame]
  · exact h.success
  · exact h.failure

/-- What is reported open is a declared group and parcels of the invoice. -/
theorem ReportsOpen.names {i : Invoice} (hi : i.IsValid) (hG : Graph.build i = .ok G)
    (h : G.ReportsOpen policy m group candidates) :
    ∃ g : GroupName, g.text = group ∧ ∀ c ∈ candidates, ∃ p ∈ i.parcels, p.name = c := by
  have hinvoice : G.invoice = i := by rw [(build_eq_ok_iff.1 hG).1]
  obtain ⟨run, -, hrecorded, e, he, -, hgroup, rfl⟩ :=
    h.exists_skipped (wellFormed_of_build hi hG) (build_eq_ok_iff.1 hG).2
  obtain ⟨_, -, hoffers, -⟩ := hrecorded.exchanges e he
  refine ⟨e.question.group, hgroup, fun c hc => ?_⟩
  obtain ⟨d, hd, rfl⟩ := List.mem_map.1 hc
  obtain ⟨p, hp, hlabel⟩ := hoffers.labels d hd
  refine ⟨p, hinvoice ▸ mem_parcels_of_parcel? hp, ?_⟩
  rw [Candidate.name, hlabel, Parcel.name]

end Graph

namespace CommandLine

/-- **A candidate that is reported can be passed back.** A choice for a group is read back as it is
meant exactly when the name of the group has no equals sign in it and that of the parcel no blanks
around it. Such a choice is accepted when it is given beside all other arguments. -/
theorem Invocation.accepts_reported {i : Invoice} {G : Graph} (hi : i.IsValid)
    (hG : Graph.build i = .ok G) :
    (∀ (g : GroupName) (draft : LabelDraft) (label : Label), Label.ofDraft draft = .ok label →
      (parseChoice? (choiceText g.text label.name) = some (g.text, label.name) ↔
        '=' ∉ g.text.toList ∧ Text.trim label.name = label.name)) ∧
    ∀ (given : Given) (a : ResolveArguments) (files : Files) (settings : ResolveSettings)
      (m : ChoiceMap), commandOf .resolve given = .resolve a → a.loadChoices files = .ok m →
      ∀ group candidates, G.ReportsOpen (a.policy settings) m group candidates →
        '=' ∉ group.toList → ∀ c ∈ candidates, Text.trim c = c →
          ∃ given' a' m', given.set .choose (choiceText group c) = .ok given' ∧
            commandOf .resolve given' = .resolve a' ∧ a'.loadChoices files = .ok m' ∧
            G.Accepts (a'.policy settings) m' group c := by
  constructor
  · intro g draft label hlabel
    obtain ⟨hmeets, hdescribes⟩ := Label.ofDraft_eq_ok_iff.1 hlabel
    exact parseChoice?_choiceText_eq_iff (hdescribes.name ▸ hmeets.name)
  · intro given a files settings m hgiven hm group candidates hopen hgroup c hc htrim
    obtain ⟨g, rfl, hparcels⟩ := hopen.names hi hG
    obtain ⟨p, hp, rfl⟩ := hparcels c hc
    obtain ⟨m', hm', hchooser⟩ := ResolveArguments.exists_loadChoices_withChoice hm g.text p.name
    have hread := (parseChoice?_choiceText_eq_iff (hi.trim_name_ne hp)).2 ⟨hgroup, htrim⟩
    have haccepts := hopen.accepts (Graph.wellFormed_of_build hi hG)
      (Graph.build_eq_ok_iff.1 hG).2 hc
    refine ⟨{ given with choose := given.choose ++ [(g.text, p.name)] },
      a.withChoice g.text p.name, m', ?_, ?_, hm', haccepts.congr hchooser⟩
    · rw [Given.set, hread]
    · cases hgiven
      rfl

namespace Worked

open Bindle.Worked (graph policy reportsOpen_rounds cli)

/-- The caller opts into the server and has chosen nothing. -/
def undecided : Given where
  optIn := ["server"]

/-- The tools that are reported can be passed back, and the second one is accepted. -/
theorem accepts_second :
    ∃ given a m, undecided.set .choose "cli=second" = .ok given ∧
      Invocation.commandOf .resolve given = .resolve a ∧ a.loadChoices files = .ok m ∧
      graph.Accepts (a.policy {}) m "cli" "second" := by
  have hgiven : Invocation.commandOf .resolve undecided =
      .resolve ⟨["server"], [], none, none, false⟩ := rfl
  exact (Invocation.accepts_reported Bindle.Worked.isValid Bindle.Worked.build_eq).2 undecided _
    files {} .empty hgiven rfl "cli" ["first", "second"] reportsOpen_rounds (by decide) "second"
    (by simp) (by decide)

/-- A blank in front of a parcel's name is lost, and a group is cut short at an equals sign. -/
theorem not_all_read_back :
    (¬∀ (draft : LabelDraft) (label : Label), Label.ofDraft draft = .ok label →
      parseChoice? (choiceText cli.text label.name) = some (cli.text, label.name)) ∧
    ¬∀ g : GroupName, parseChoice? (choiceText g.text "first") = some (g.text, "first") := by
  constructor
  · intro h
    have hread := h (Bindle.Worked.label " first").toDraft (Bindle.Worked.label " first")
      (by decide +kernel)
    revert hread
    decide +kernel
  · intro h
    have hread := h ⟨"a=b", by decide, by decide +kernel, by decide⟩
    revert hread
    decide +kernel

end Worked

end CommandLine

end Bindle
