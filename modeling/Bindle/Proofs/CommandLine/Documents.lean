import Bindle.CommandLine.Configuration
import Bindle.CommandLine.Documents

/-!
# What documents of settings and of choices say

`Bindle.Settings` and `Bindle.Document` read tables. A table of choices is what it is written as:
texts under keys, all of them and nothing else. A table of settings says what stands under the key
of each setting, and a setting that is left out has its default.

* `mapM_eq_some_iff`: a list that is read item by item, by a reader that undoes a writer.
* `Records`, `ChoiceMap.parse?_eq_some_iff`: the choices in a document.
* `ResolveSettings.IsSetBy`, `Configuration.SetsAsWritten`: the settings in a table, and those in
  effect; `Configuration.setsAsWritten_of_load` says that they are as written.
-/

namespace Bindle

/-- What is read item by item is what was written item by item. -/
theorem mapM_eq_some_iff {α β : Type} {read : α → Option β} {write : β → α}
    (h : ∀ a b, read a = some b ↔ a = write b) {as : List α} {bs : List β} :
    as.mapM read = some bs ↔ as = bs.map write := by
  induction as generalizing bs with
  | nil => cases bs <;> simp
  | cons a as ih =>
    simp only [List.mapM_cons, Option.bind_eq_bind, Option.bind_eq_some_iff, h, ih,
      Option.pure_def, Option.some.injEq]
    constructor
    · rintro ⟨b, rfl, rest, rfl, rfl⟩
      rfl
    · intro hcons
      obtain ⟨b, rest, rfl, rfl, rfl⟩ := List.map_eq_cons_iff.1 hcons.symm
      exact ⟨b, rfl, rest, rfl, rfl⟩

theorem Json.text?_eq_some_iff {j : Json} {s : String} : j.text? = some s ↔ j = .string s := by
  cases j <;> simp [Json.text?]

/-! ## Choices -/

/-- The text is a document with one table: these texts under these keys, and nothing else. -/
def Records (text : String) (entries : List (String × String)) : Prop :=
  (Toml.parse? text).map Toml.toJson = some (.object (entries.map fun e => (e.1, .string e.2)))

/-- The choices that are read are those that the document records. -/
theorem ChoiceMap.parse?_eq_some_iff {text : String} {choices : ChoiceMap} :
    ChoiceMap.parse? text = some choices ↔
      ∃ entries, Records text entries ∧ .ofList entries = choices := by
  have hmember : ∀ (m : String × Json) (e : String × String),
      m.2.text?.map (m.1, ·) = some e ↔ m = (e.1, .string e.2) := by
    rintro ⟨key, value⟩ ⟨key', s⟩
    simp only [Option.map_eq_some_iff, Json.text?_eq_some_iff, Prod.mk.injEq]
    constructor
    · rintro ⟨s, rfl, rfl, rfl⟩
      exact ⟨rfl, rfl⟩
    · rintro ⟨rfl, rfl⟩
      exact ⟨s, rfl, rfl, rfl⟩
  rw [ChoiceMap.parse?]
  unfold Records
  cases Toml.parse? text with
  | none => simp
  | some t =>
    rw [Option.bind_some, Option.map_some, ofJson?]
    cases t.toJson with
    | object members =>
      simp only [Json.mapOf?, Option.bind_eq_bind, Option.bind_eq_some_iff,
        mapM_eq_some_iff hmember, Option.pure_def, Option.some.injEq, Json.object.injEq]
    | _ => simp [Json.mapOf?]

/-! ## Settings -/

/-- The members of a table set these settings. -/
structure ResolveSettings.IsSetBy (s : ResolveSettings) (members : List (String × Json)) :
    Prop where
  anyOf : ∀ text, members.lookup "any_of" = some (.string text) →
    AnyOfReading.ofText? text = some s.anyOf
  withoutAnyOf : members.lookup "any_of" = none → s.anyOf = .atLeastOne
  allowYanked : (members.lookup "allow_yanked").getD (.bool false) = .bool s.allowYanked
  optIn : (members.lookup "opt_in").getD (.array []) = .array (s.optIn.map .string)

/-- The settings in effect are those of the table that their file holds, and the default ones
without a file. -/
structure Configuration.SetsAsWritten (c : Configuration) (files : Files) : Prop where
  source : ∀ path, c.source = some path → ∃ text, files path = .ok text ∧
    ∀ members, (Toml.parse? text).map Toml.toJson = some (.object [("resolve", .object members)]) →
      c.project.resolve.IsSetBy members
  default : c.source = none → c.project = {}

theorem Json.listOf?_text?_eq_some_iff {j : Json} {ss : List String} :
    Json.listOf? Json.text? j = some ss ↔ j = .array (ss.map .string) := by
  cases j with
  | array items =>
    rw [Json.listOf?, mapM_eq_some_iff fun _ _ => Json.text?_eq_some_iff, Json.array.injEq]
  | _ => simp [Json.listOf?]

theorem Json.flag?_eq_some_iff {j : Json} {b : Bool} : j.flag? = some b ↔ j = .bool b := by
  cases j <;> simp [Json.flag?]

/-- Where the reader undoes a writer, a field is what stands under its key, or its default. -/
theorem Json.getD_of_defaulted {α : Type} {members : List (String × Json)} {key : String}
    {otherwise a : α} {read : Json → Option α} (write : α → Json)
    (hread : ∀ j a, read j = some a ↔ j = write a)
    (h : Json.defaulted members key otherwise read = some a) :
    (members.lookup key).getD (write otherwise) = write a := by
  unfold Json.defaulted at h
  cases hkey : members.lookup key with
  | none =>
    rw [hkey] at h
    cases h
    rfl
  | some value =>
    rw [hkey] at h
    exact (hread value a).1 h

theorem ResolveSettings.isSetBy_of_ofJson? {members : List (String × Json)} {s : ResolveSettings}
    (h : ofJson? (.object members) = some s) : s.IsSetBy members := by
  simp only [ofJson?, Option.bind_eq_bind, Option.bind_eq_some_iff, Option.pure_def,
    Option.some.injEq] at h
  obtain ⟨known, hknown, anyOf, hanyOf, allowYanked, hallow, optIn, hoptIn, rfl⟩ := h
  have hmembers : known = members := by
    simp only [Json.record?, Option.ite_none_right_eq_some, Option.some.injEq] at hknown
    exact hknown.2.symm
  subst hmembers
  refine ⟨fun text htext => ?_, fun hnone => ?_, ?_, ?_⟩
  · rwa [Json.defaulted, htext] at hanyOf
  · rw [Json.defaulted, hnone] at hanyOf
    exact (Option.some.inj hanyOf).symm
  · exact Json.getD_of_defaulted .bool (fun _ _ => Json.flag?_eq_some_iff) hallow
  · exact Json.getD_of_defaulted (fun names => .array (names.map .string))
      (fun _ _ => Json.listOf?_text?_eq_some_iff) hoptIn

theorem ProjectSettings.isSetBy_of_parse? {text : String} {settings : ProjectSettings}
    {members : List (String × Json)} (h : ProjectSettings.parse? text = some settings)
    (htext : (Toml.parse? text).map Toml.toJson = some (.object [("resolve", .object members)])) :
    settings.resolve.IsSetBy members := by
  obtain ⟨t, ht, htable⟩ := Option.map_eq_some_iff.1 htext
  rw [ProjectSettings.parse?, ht, Option.bind_some, htable] at h
  simp only [ofJson?, Option.bind_eq_bind, Option.bind_eq_some_iff, Option.pure_def,
    Option.some.injEq] at h
  obtain ⟨known, hknown, resolve, hresolve, rfl⟩ := h
  cases hknown
  exact ResolveSettings.isSetBy_of_ofJson? hresolve

theorem ProjectSettings.load_eq_ok_iff {files : Files} {path : String}
    {settings : ProjectSettings} :
    ProjectSettings.load files path = .ok settings ↔
      ∃ text, files path = .ok text ∧ ProjectSettings.parse? text = some settings := by
  unfold ProjectSettings.load
  cases files path with
  | error e => simp
  | ok text => cases hparse : ProjectSettings.parse? text <;> simp [hparse]

namespace Configuration

variable {files : Files} {environment : Environment} {named : Option String} {c : Configuration}

theorem load_of_source?_eq_none (h : source? files environment.directory named = none) :
    load files environment named =
      (UserSettings.load files environment.userFile?).map fun user => { user } := by
  rw [load, h]
  rfl

theorem load_of_source?_eq_some {path : String}
    (h : source? files environment.directory named = some path) :
    load files environment named =
      (UserSettings.load files environment.userFile?).bind fun user =>
        (ProjectSettings.load files path).map fun project =>
          { project, user, source := some path } := by
  rw [load, h]
  rfl

/-- The settings in effect are as written. -/
theorem setsAsWritten_of_load (h : load files environment named = .ok c) :
    c.SetsAsWritten files := by
  cases hsource : source? files environment.directory named with
  | none =>
    rw [load_of_source?_eq_none hsource] at h
    cases huser : UserSettings.load files environment.userFile? with
    | error causes =>
      rw [huser] at h
      cases h
    | ok user =>
      rw [huser] at h
      cases h
      exact ⟨nofun, fun _ => rfl⟩
  | some path =>
    rw [load_of_source?_eq_some hsource] at h
    cases huser : UserSettings.load files environment.userFile? with
    | error causes =>
      rw [huser] at h
      cases h
    | ok user =>
      cases hproject : ProjectSettings.load files path with
      | error causes =>
        rw [huser, hproject] at h
        cases h
      | ok project =>
        rw [huser, hproject] at h
        cases h
        obtain ⟨text, htext, hparse⟩ := ProjectSettings.load_eq_ok_iff.1 hproject
        refine ⟨?_, nofun⟩
        rintro _ ⟨⟩
        exact ⟨text, htext, fun _ => ProjectSettings.isSetBy_of_parse? hparse⟩

end Configuration

end Bindle
