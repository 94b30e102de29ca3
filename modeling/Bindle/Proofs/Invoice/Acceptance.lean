import Bindle.Invoice.Assembly
import Mathlib.Data.List.Forall2
import Mathlib.Data.List.Nodup
import Mathlib.Data.List.TakeWhile

/-!
# What the checks accept

A check accepts what it is given when it reports nothing. For each check of a draft this module
says what it accepts and what it makes of that, in the terms of the draft: which texts it admits,
and that the result is what the draft describes, in its order and with nothing left out. A list
without its later repeats is written `eraseDups`.

* `Check.Yields`: a check that reports nothing, with its result; `yields_bind` takes a sequence of
  checks apart.
* `GroupDraft.Describes`, `LabelDraft.Describes`, `ParcelDraft.Describes`, `BindleDraft.Describes`:
  what a draft says, said of what is made of it.
* `LabelDraft.MeetsSchema`, `Parcel.NamesDeclared`: what must hold besides.
* `yields_checkGroups_iff`, `yields_checkParcels_iff`, `BindleDraft.yields_check_iff`: what the
  checks of a draft accept.
-/

namespace Bindle

/-! ## Checks that report nothing -/

namespace Check

variable {α β : Type} {mode : Reporting}

/-- The check reports nothing and has this result. -/
def Yields (c : Check α) (mode : Reporting) (a : α) : Prop :=
  c mode = ([], some a)

@[simp] theorem yields_pure {a b : α} : (Pure.pure a : Check α).Yields mode b ↔ a = b := by
  show (([], some a) : List Violation × Option α) = ([], some b) ↔ a = b
  simp

theorem yields_bind {c : Check α} {next : α → Check β} {b : β} :
    (c >>= next).Yields mode b ↔ ∃ a, c.Yields mode a ∧ (next a).Yields mode b := by
  show Check.bind c next mode = ([], some b) ↔ _
  unfold Check.bind Yields
  rcases c mode with ⟨reported, _ | a⟩
  · simp
  · cases reported with
    | nil => simp [Prod.ext_iff]
    | cons v vs => simp

@[simp] theorem not_yields_report {v : Violation} {u : Unit} : ¬(report v).Yields mode u := by
  cases mode <;> simp [Yields, report]

@[simp] theorem yields_reportIf {p : Prop} [Decidable p] {v : Violation} {u : Unit} :
    (reportIf p v).Yields mode u ↔ ¬p := by
  by_cases h : p
  · simp [reportIf, h]
  · simp only [reportIf, h, if_false, not_false_eq_true, iff_true]
    rfl

/-- What follows a report never yields anything, because the report is there. -/
@[simp] theorem not_yields_report_bind {v : Violation} {next : Unit → Check β} {b : β} :
    ¬(report v >>= next).Yields mode b := by
  rw [yields_bind]
  rintro ⟨u, hu, -⟩
  exact not_yields_report hu

end Check

open Check (report reportIf yields_bind)

variable {mode : Reporting}

/-! ## Lists -/

theorem exists_map_eq {α β : Type} {f : α → β} {P : α → Prop} {l : List β}
    (h : ∀ b ∈ l, ∃ a, P a ∧ f a = b) : ∃ as : List α, as.map f = l ∧ ∀ a ∈ as, P a := by
  induction l with
  | nil => exact ⟨[], rfl, by simp⟩
  | cons b rest ih =>
    obtain ⟨a, ha, rfl⟩ := h b List.mem_cons_self
    obtain ⟨as, rfl, has⟩ := ih fun b' hb' => h b' (List.mem_cons_of_mem _ hb')
    exact ⟨a :: as, rfl, List.forall_mem_cons.2 ⟨ha, has⟩⟩

theorem eraseDups_map {α β : Type} [DecidableEq α] [DecidableEq β] {f : α → β}
    (hf : Function.Injective f) : ∀ l : List α, (l.map f).eraseDups = l.eraseDups.map f
  | [] => rfl
  | a :: l => by
    have hsame : ((fun b => !b == f a) ∘ f) = fun b => !b == a := by
      funext b
      simp [hf.eq_iff]
    rw [List.map_cons, List.eraseDups_cons, List.eraseDups_cons, List.map_cons, List.filter_map,
      hsame, eraseDups_map hf (l.filter fun b => !b == a)]
  termination_by l => l.length
  decreasing_by
    have hle := List.length_filter_le (fun b => !b == a) l
    simp only [List.length_cons]
    omega

/-- What a list of texts without its later repeats stands for is what the whole list stands for,
without its later repeats. -/
theorem map_eq_eraseDups_iff {α β : Type} [DecidableEq α] [DecidableEq β] {f : α → β}
    (hf : Function.Injective f) {kept : List α} {texts : List β} :
    kept.map f = texts.eraseDups ↔ ∃ all : List α, all.map f = texts ∧ all.eraseDups = kept := by
  constructor
  · intro h
    have hfrom : ∀ text ∈ texts, ∃ a, a ∈ kept ∧ f a = text := by
      intro text htext
      rw [← List.mem_eraseDups, ← h] at htext
      exact List.mem_map.1 htext
    obtain ⟨all, rfl, -⟩ := exists_map_eq hfrom
    rw [eraseDups_map hf] at h
    exact ⟨all, rfl, (List.map_injective_iff.2 hf h).symm⟩
  · rintro ⟨all, rfl, rfl⟩
    exact (eraseDups_map hf all).symm

/-- Names that are new one after the other are new together. -/
theorem nodup_disjoint_cons_iff {α : Type} {a : α} {names seen : List α} :
    (a :: names).Nodup ∧ (a :: names).Disjoint seen ↔
      a ∉ seen ∧ names.Nodup ∧ names.Disjoint (a :: seen) := by
  rw [List.nodup_cons, List.disjoint_cons_left, List.disjoint_cons_right]
  constructor
  · rintro ⟨⟨ha, hnodup⟩, hfresh, hdisjoint⟩
    exact ⟨hfresh, hnodup, ha, hdisjoint⟩
  · rintro ⟨hfresh, hnodup, ha, hdisjoint⟩
    exact ⟨⟨ha, hnodup⟩, hfresh, hdisjoint⟩

/-! ## Blank texts -/

/-- A text is blank exactly when nothing is left of it without the blanks around it. -/
theorem Text.isBlank_iff {s : String} : Text.isBlank s = true ↔ Text.trim s = "" := by
  have hchars : Text.trimChars s.toList = [] ↔ ∀ c ∈ s.toList, Text.isBlankChar c = true := by
    rw [Text.trimChars, List.reverse_eq_nil_iff, List.dropWhile_eq_nil_iff]
    simp only [List.mem_reverse]
    constructor
    · intro h
      -- a text that is not blank has a first character that is not, and it is left in front
      rw [← List.dropWhile_eq_nil_iff]
      by_contra hne
      have hfirst := List.head_dropWhile_not Text.isBlankChar hne
      rw [h _ (List.head_mem hne)] at hfirst
      cases hfirst
    · intro h c hc
      exact h c (List.dropWhile_subset _ hc)
  rw [Text.isBlank, List.all_eq_true, ← hchars, Text.trim]
  exact String.ofList_eq_empty_iff.symm

theorem Text.not_isBlank_iff {s : String} : ¬Text.isBlank s = true ↔ Text.trim s ≠ "" :=
  not_congr Text.isBlank_iff

/-! ## The bindle -/

/-- What the draft says of the bindle. -/
structure BindleDraft.Describes (draft : BindleDraft) (info : BindleInfo) : Prop where
  name : info.name = draft.name
  version : Version.parse (Text.trim draft.version) = .ok info.version
  authors : info.authors = draft.authors.getD []
  description : info.description = draft.description

theorem BindleDraft.yields_checkVersion_iff {draft : BindleDraft} {version : Version} :
    draft.checkVersion.Yields mode version ↔
      Version.parse (Text.trim draft.version) = .ok version := by
  unfold checkVersion
  split
  · rename_i hblank
    have hempty : Version.parse (Text.trim draft.version) = .error .emptyText := by
      rw [Text.isBlank_iff.1 hblank]
      rfl
    simp [hempty]
  · cases Version.parse (Text.trim draft.version) with
    | ok parsed => simp
    | error reason => simp

theorem BindleDraft.yields_check_iff {draft : BindleDraft} {info : BindleInfo} :
    draft.check.Yields mode info ↔ Text.trim draft.name ≠ "" ∧ draft.Describes info := by
  unfold check
  rw [yields_bind]
  constructor
  · rintro ⟨_, hname, h⟩
    obtain ⟨version, hversion, h⟩ := yields_bind.1 h
    rw [Check.yields_reportIf, Text.not_isBlank_iff] at hname
    rw [← Check.yields_pure.1 h]
    exact ⟨hname, rfl, yields_checkVersion_iff.1 hversion, rfl, rfl⟩
  · rintro ⟨hname, hdescribes⟩
    refine ⟨(), Check.yields_reportIf.2 (Text.not_isBlank_iff.2 hname), yields_bind.2 ?_⟩
    refine ⟨info.version, yields_checkVersion_iff.2 hdescribes.version, Check.yields_pure.2 ?_⟩
    rw [← hdescribes.name, ← hdescribes.authors, ← hdescribes.description]

/-! ## Groups -/

/-- What the draft says of the group; all of its members, if nothing is said of its policy. -/
structure GroupDraft.Describes (draft : GroupDraft) (group : Group) : Prop where
  name : group.name.text = draft.name
  policy : group.policy.toText = draft.satisfiedBy.getD "allOf"
  required : group.required = draft.required.getD false

theorem GroupDraft.yields_checkPolicy_iff {draft : GroupDraft} {policy : GroupPolicy} :
    draft.checkPolicy.Yields mode policy ↔
      policy.toText = draft.satisfiedBy.getD "allOf" := by
  unfold checkPolicy
  cases draft.satisfiedBy with
  | none => cases policy <;> simp [GroupPolicy.toText]
  | some value =>
    rw [Option.getD_some, ← GroupPolicy.ofText?_eq_some_iff]
    dsimp only
    cases GroupPolicy.ofText? value with
    | none => simp
    | some found => simp

theorem GroupDraft.yields_check_iff {draft : GroupDraft} {position : Nat}
    {earlier : List GroupName} {result : Option Group} :
    (draft.check position earlier).Yields mode result ↔
      ∃ group, result = some group ∧ draft.Describes group ∧ group.name ∉ earlier := by
  have hnone : ∀ reason, GroupName.parse draft.name = .error reason →
      ¬∃ group, result = some group ∧ draft.Describes group ∧ group.name ∉ earlier := by
    rintro reason hparse ⟨group, -, hdescribes, -⟩
    rw [← hdescribes.name, GroupName.parse_text] at hparse
    cases hparse
  unfold check
  split
  · rename_i hparse
    exact iff_of_false Check.not_yields_report_bind (hnone _ hparse)
  · rename_i reason _ hparse
    exact iff_of_false Check.not_yields_report_bind (hnone reason hparse)
  · rename_i name hparse
    have hname := GroupName.text_of_parse hparse
    rw [yields_bind]
    constructor
    · rintro ⟨policy, hpolicy, h⟩
      split at h
      · exact absurd h Check.not_yields_report_bind
      · rename_i hfresh
        refine ⟨_, (Check.yields_pure.1 h).symm, ⟨hname, ?_, rfl⟩, hfresh⟩
        exact yields_checkPolicy_iff.1 hpolicy
    · rintro ⟨group, rfl, hdescribes, hfresh⟩
      have hsame : name = group.name := GroupName.text_inj.1 (hname.trans hdescribes.name.symm)
      refine ⟨group.policy, yields_checkPolicy_iff.2 hdescribes.policy, ?_⟩
      rw [hsame, if_neg hfresh, Check.yields_pure, ← hdescribes.required]

/-- Groups are accepted when each is what its draft describes and no two share a name. -/
theorem yields_checkGroups_iff {drafts : List GroupDraft} {position : Nat}
    {earlier : List GroupName} {groups : List Group} :
    (checkGroups position earlier drafts).Yields mode groups ↔
      List.Forall₂ GroupDraft.Describes drafts groups ∧
        (groups.map (·.name)).Nodup ∧ (groups.map (·.name)).Disjoint earlier := by
  induction drafts generalizing position earlier groups with
  | nil =>
    rw [checkGroups, Check.yields_pure, List.forall₂_nil_left_iff]
    constructor
    · rintro rfl
      simp
    · rintro ⟨rfl, -⟩
      rfl
  | cons draft rest ih =>
    rw [checkGroups, yields_bind, List.forall₂_cons_left_iff]
    constructor
    · rintro ⟨result, hresult, h⟩
      obtain ⟨group, rfl, hdescribes, hfresh⟩ := GroupDraft.yields_check_iff.1 hresult
      obtain ⟨more, hmore, h⟩ := yields_bind.1 h
      obtain ⟨hrest, hnew⟩ := ih.1 hmore
      rw [← Check.yields_pure.1 h]
      exact ⟨⟨group, more, hdescribes, hrest, rfl⟩, nodup_disjoint_cons_iff.2 ⟨hfresh, hnew⟩⟩
    · rintro ⟨⟨group, more, hdescribes, hrest, rfl⟩, hnames⟩
      obtain ⟨hfresh, hnew⟩ := nodup_disjoint_cons_iff.1 hnames
      refine ⟨some group, GroupDraft.yields_check_iff.2 ⟨group, rfl, hdescribes, hfresh⟩, ?_⟩
      exact yields_bind.2 ⟨more, ih.2 ⟨hrest, hnew⟩, Check.yields_pure.2 rfl⟩

/-! ## Conditions -/

/-- The text that stands for a group in a list of conditions. -/
def GroupRef.toReference : GroupRef → String
  | .global => ""
  | .named name => name.text

theorem GroupName.text_injective : Function.Injective GroupName.text :=
  fun _ _ h => GroupName.text_inj.1 h

theorem GroupRef.toReference_injective : Function.Injective GroupRef.toReference := by
  intro a b h
  cases a with
  | global =>
    cases b with
    | global => rfl
    | named name => exact absurd h.symm name.ne_empty
  | named name =>
    cases b with
    | global => exact absurd h name.ne_empty
    | named other => rw [GroupName.text_inj.1 h]

/-- A parcel names only groups that are declared. -/
structure Parcel.NamesDeclared (p : Parcel) (declared : List GroupName) : Prop where
  memberOf : ∀ names, p.memberOf = some names → ∀ name ∈ names, name ∈ declared
  requires : ∀ name, .named name ∈ p.requires → name ∈ declared

/-- What the draft says of a parcel's place; in both lists later repeats are left out. -/
structure ConditionsDraft.Describes (draft : ConditionsDraft) (p : Parcel) : Prop where
  memberOf : p.memberOf.map (·.map (·.text)) = draft.memberOf.map (·.eraseDups)
  requires : p.requires.map (·.toReference) = (draft.requires.getD []).eraseDups

section Conditions

variable {declared : List GroupName} {parcel : String}

theorem findName?_eq_some_iff {text : String} {name : GroupName} :
    findName? declared text = some name ↔ name ∈ declared ∧ name.text = text := by
  constructor
  · intro h
    exact ⟨List.mem_of_find?_eq_some h, by simpa using List.find?_some h⟩
  · rintro ⟨hmem, rfl⟩
    have hsome : (findName? declared name.text).isSome = true := by
      rw [findName?, List.find?_isSome]
      exact ⟨name, hmem, beq_self_eq_true _⟩
    obtain ⟨found, hfound⟩ := Option.isSome_iff_exists.1 hsome
    have htext : found.text = name.text := by simpa using List.find?_some hfound
    rw [hfound, GroupName.text_inj.1 htext]

theorem yields_checkMemberOf_iff {texts : List String} {names : List GroupName} :
    (checkMemberOf declared parcel texts).Yields mode names ↔
      names.map (·.text) = texts ∧ ∀ name ∈ names, name ∈ declared := by
  induction texts generalizing names with
  | nil =>
    rw [checkMemberOf, Check.yields_pure, List.map_eq_nil_iff]
    constructor
    · rintro rfl
      simp
    · rintro ⟨rfl, -⟩
      rfl
  | cons text rest ih =>
    rw [checkMemberOf, List.map_eq_cons_iff]
    split
    · rename_i hempty
      refine iff_of_false Check.not_yields_report_bind ?_
      rintro ⟨⟨name, more, rfl, hname, -⟩, -⟩
      exact name.ne_empty (hname.trans hempty)
    · split
      · rename_i found hfound
        rw [findName?_eq_some_iff] at hfound
        rw [yields_bind]
        constructor
        · rintro ⟨more, hmore, h⟩
          obtain ⟨hrest, hdeclared⟩ := ih.1 hmore
          rw [← Check.yields_pure.1 h, List.forall_mem_cons]
          exact ⟨⟨found, more, rfl, hfound.2, hrest⟩, hfound.1, hdeclared⟩
        · rintro ⟨⟨name, more, rfl, hname, hrest⟩, hdeclared⟩
          rw [List.forall_mem_cons] at hdeclared
          refine ⟨more, ih.2 ⟨hrest, hdeclared.2⟩, ?_⟩
          rw [GroupName.text_inj.1 (hfound.2.trans hname.symm)]
          exact Check.yields_pure.2 rfl
      · rename_i hnone
        refine iff_of_false Check.not_yields_report_bind ?_
        rintro ⟨⟨name, more, rfl, hname, -⟩, hdeclared⟩
        have hfound : findName? declared text = some name :=
          findName?_eq_some_iff.2 ⟨hdeclared name List.mem_cons_self, hname⟩
        rw [hnone] at hfound
        cases hfound

theorem yields_checkRequires_iff {texts : List String} {refs : List GroupRef} :
    (checkRequires declared parcel texts).Yields mode refs ↔
      refs.map (·.toReference) = texts ∧ ∀ name, .named name ∈ refs → name ∈ declared := by
  induction texts generalizing refs with
  | nil =>
    rw [checkRequires, Check.yields_pure, List.map_eq_nil_iff]
    constructor
    · rintro rfl
      simp
    · rintro ⟨rfl, -⟩
      rfl
  | cons text rest ih =>
    -- the reference in front is the one that the text stands for, if there is any
    have hcons : ∀ ref : GroupRef, ref.toReference = text →
        (∀ name, .named name = ref → name ∈ declared) →
        ((checkRequires declared parcel rest >>= fun more => Pure.pure (ref :: more)).Yields mode
            refs ↔
          refs.map (·.toReference) = text :: rest ∧
            ∀ name, .named name ∈ refs → name ∈ declared) := by
      intro ref href hdeclared
      rw [yields_bind, List.map_eq_cons_iff]
      constructor
      · rintro ⟨more, hmore, h⟩
        obtain ⟨hrest, hmoreDeclared⟩ := ih.1 hmore
        rw [← Check.yields_pure.1 h]
        refine ⟨⟨ref, more, rfl, href, hrest⟩, fun name hname => ?_⟩
        exact (List.mem_cons.1 hname).elim (hdeclared name) (hmoreDeclared name)
      · rintro ⟨⟨other, more, rfl, hother, hrest⟩, hall⟩
        rw [GroupRef.toReference_injective (hother.trans href.symm)]
        refine ⟨more, ih.2 ⟨hrest, fun name hname => ?_⟩, Check.yields_pure.2 rfl⟩
        exact hall name (List.mem_cons_of_mem _ hname)
    rw [checkRequires]
    split
    · rename_i hempty
      exact hcons .global hempty.symm fun name hname => by cases hname
    · rename_i hnonempty
      split
      · rename_i found hfound
        rw [findName?_eq_some_iff] at hfound
        refine hcons (.named found) hfound.2 fun name hname => ?_
        cases hname
        exact hfound.1
      · rename_i hnone
        refine iff_of_false Check.not_yields_report_bind ?_
        rintro ⟨hmap, hall⟩
        obtain ⟨ref, more, rfl, href, -⟩ := List.map_eq_cons_iff.1 hmap
        cases ref with
        | global => exact hnonempty href.symm
        | named name =>
          have hfound : findName? declared text = some name :=
            findName?_eq_some_iff.2 ⟨hall name List.mem_cons_self, href⟩
          rw [hnone] at hfound
          cases hfound

theorem yields_checkMembership_iff {texts? : Option (List String)}
    {names? : Option (List GroupName)} :
    (checkMembership declared parcel texts?).Yields mode names? ↔
      names?.map (·.map (·.text)) = texts?.map (·.eraseDups) ∧
        ∀ names, names? = some names → ∀ name ∈ names, name ∈ declared := by
  cases texts? with
  | none =>
    rw [checkMembership, Check.yields_pure, Option.map_none, Option.map_eq_none_iff]
    constructor
    · rintro rfl
      simp
    · rintro ⟨rfl, -⟩
      rfl
  | some texts =>
    rw [checkMembership, yields_bind, Option.map_some, Option.map_eq_some_iff]
    constructor
    · rintro ⟨all, hall, h⟩
      obtain ⟨htexts, hdeclared⟩ := yields_checkMemberOf_iff.1 hall
      rw [← Check.yields_pure.1 h]
      refine ⟨⟨_, rfl, (map_eq_eraseDups_iff GroupName.text_injective).2 ⟨all, htexts, rfl⟩⟩, ?_⟩
      intro names hnames name hname
      obtain rfl := Option.some.inj hnames
      exact hdeclared name (List.mem_eraseDups.1 hname)
    · rintro ⟨⟨names, rfl, hnames⟩, hdeclared⟩
      obtain ⟨all, htexts, rfl⟩ := (map_eq_eraseDups_iff GroupName.text_injective).1 hnames
      refine ⟨all, yields_checkMemberOf_iff.2 ⟨htexts, fun name hname => ?_⟩,
        Check.yields_pure.2 rfl⟩
      exact hdeclared _ rfl name (List.mem_eraseDups.2 hname)

/-- A parcel's place is accepted when it is what the draft describes and names declared groups. -/
theorem ConditionsDraft.yields_check_iff {draft : ConditionsDraft} {p : Parcel} :
    (draft.check declared parcel).Yields mode (p.memberOf, p.requires) ↔
      draft.Describes p ∧ p.NamesDeclared declared := by
  unfold check
  rw [yields_bind]
  constructor
  · rintro ⟨names?, hnames, h⟩
    obtain ⟨refs, hrefs, h⟩ := yields_bind.1 h
    obtain ⟨rfl, hrequires⟩ := Prod.mk.inj (Check.yields_pure.1 h)
    obtain ⟨hmemberOf, hdeclared⟩ := yields_checkMembership_iff.1 hnames
    obtain ⟨htexts, hrefsDeclared⟩ := yields_checkRequires_iff.1 hrefs
    refine ⟨⟨hmemberOf, ?_⟩, hdeclared, fun name hname => ?_⟩
    · exact (map_eq_eraseDups_iff GroupRef.toReference_injective).2 ⟨refs, htexts, hrequires⟩
    · rw [← hrequires, List.mem_eraseDups] at hname
      exact hrefsDeclared name hname
  · rintro ⟨hdescribes, hdeclared⟩
    obtain ⟨refs, htexts, hrequires⟩ :=
      (map_eq_eraseDups_iff GroupRef.toReference_injective).1 hdescribes.requires
    refine ⟨p.memberOf, yields_checkMembership_iff.2 ⟨hdescribes.memberOf, hdeclared.memberOf⟩, ?_⟩
    refine yields_bind.2 ⟨refs, yields_checkRequires_iff.2 ⟨htexts, ?_⟩, ?_⟩
    · intro name hname
      rw [← List.mem_eraseDups, hrequires] at hname
      exact hdeclared.requires name hname
    · rw [Check.yields_pure, hrequires]

end Conditions

/-! ## Labels -/

/-- A text of hexadecimal digits, at least one. -/
def IsHex (text : String) : Prop :=
  text ≠ "" ∧ ∀ c ∈ text.toList, c ∈ "0123456789abcdefABCDEF".toList

/-- What the schema asks of a label. -/
structure LabelDraft.MeetsSchema (draft : LabelDraft) : Prop where
  name : Text.trim draft.name ≠ ""
  digested : ∃ algorithm digest, draft.digests.get? algorithm = some digest
  digests : ∀ algorithm digest, draft.digests.get? algorithm = some digest → IsHex digest

/-- What the draft says of a label. -/
structure LabelDraft.Describes (draft : LabelDraft) (label : Label) : Prop where
  name : label.name = draft.name
  digests : label.digests = draft.digests
  mediaType : label.mediaType = draft.mediaType.getD Label.defaultMediaType
  size : label.size = draft.size
  annotations : label.annotations = draft.annotations
  feature : label.feature = draft.feature

theorem mem_of_between {c first last : Char} {cs : List Char}
    (h : ∀ n ≤ last.toNat, first.toNat ≤ n → Char.ofNat n ∈ cs) (hfirst : first ≤ c)
    (hlast : c ≤ last) : c ∈ cs := by
  have hmem := h c.toNat (UInt32.le_iff_toNat_le.1 hlast) (UInt32.le_iff_toNat_le.1 hfirst)
  rwa [Char.ofNat_toNat] at hmem

theorem mem_hexDigits_iff {c : Char} :
    c ∈ "0123456789abcdefABCDEF".toList ↔
      ('0' ≤ c ∧ c ≤ '9' ∨ 'a' ≤ c ∧ c ≤ 'f') ∨ 'A' ≤ c ∧ c ≤ 'F' := by
  constructor
  · intro hc
    have hall : "0123456789abcdefABCDEF".toList.all fun d =>
        ('0' ≤ d ∧ d ≤ '9' ∨ 'a' ≤ d ∧ d ≤ 'f') ∨ 'A' ≤ d ∧ d ≤ 'F' := by decide
    exact of_decide_eq_true (List.all_eq_true.1 hall c hc)
  · rintro ((⟨hfirst, hlast⟩ | ⟨hfirst, hlast⟩) | ⟨hfirst, hlast⟩)
    · exact mem_of_between (by decide) hfirst hlast
    · exact mem_of_between (by decide) hfirst hlast
    · exact mem_of_between (by decide) hfirst hlast

theorem isHexText_iff {text : String} : isHexText text = true ↔ IsHex text := by
  simp only [isHexText, IsHex, Bool.and_eq_true, bne_iff_ne, List.all_eq_true, Bool.or_eq_true,
    decide_eq_true_eq, mem_hexDigits_iff]

theorem Digests.mem_toList {d : Digests} {algorithm : HashAlgorithm} {digest : String} :
    (algorithm, digest) ∈ d.toList ↔ d.get? algorithm = some digest := by
  cases algorithm <;> simp [toList, get?]

theorem Digests.toList_ne_nil_iff {d : Digests} :
    d.toList ≠ [] ↔ ∃ algorithm digest, d.get? algorithm = some digest := by
  constructor
  · intro h
    obtain ⟨⟨algorithm, digest⟩, hmem⟩ := List.exists_mem_of_ne_nil _ h
    exact ⟨algorithm, digest, mem_toList.1 hmem⟩
  · rintro ⟨algorithm, digest, hgiven⟩
    exact List.ne_nil_of_mem (mem_toList.2 hgiven)

/-- A label is accepted when it meets the schema, and then it is what the draft describes. -/
theorem Label.ofDraft_eq_ok_iff {draft : LabelDraft} {label : Label} :
    Label.ofDraft draft = .ok label ↔ draft.MeetsSchema ∧ draft.Describes label := by
  unfold Label.ofDraft
  split
  · rename_i hblank
    simp only [reduceCtorEq, false_iff, not_and]
    exact fun hmeets => absurd (Text.isBlank_iff.1 hblank) hmeets.name
  · rename_i hname
    split
    · rename_i algorithm digest hfound
      simp only [reduceCtorEq, false_iff, not_and]
      intro hmeets
      have hgiven := Digests.mem_toList.1 (List.mem_of_find?_eq_some hfound)
      have hhex := isHexText_iff.2 (hmeets.digests algorithm digest hgiven)
      have hnot := List.find?_some hfound
      simp [hhex] at hnot
    · rename_i hhex
      split
      · rename_i hempty
        simp only [reduceCtorEq, false_iff, not_and]
        intro hmeets
        exact absurd (List.isEmpty_iff.1 hempty) (Digests.toList_ne_nil_iff.2 hmeets.digested)
      · rename_i hsome
        have hmeets : draft.MeetsSchema := by
          refine ⟨Text.not_isBlank_iff.1 hname, Digests.toList_ne_nil_iff.1 ?_, ?_⟩
          · rwa [List.isEmpty_iff] at hsome
          · intro algorithm digest hgiven
            have hdigest := List.find?_eq_none.1 hhex _ (Digests.mem_toList.2 hgiven)
            exact isHexText_iff.1 (by simpa using hdigest)
        rw [Except.ok.injEq, and_iff_right hmeets]
        constructor
        · rintro rfl
          exact ⟨rfl, rfl, rfl, rfl, rfl, rfl⟩
        · intro h
          rw [← h.name, ← h.digests, ← h.mediaType, ← h.size, ← h.annotations, ← h.feature]

/-! ## Parcels -/

/-- What the draft says of a parcel. -/
structure ParcelDraft.Describes (draft : ParcelDraft) (p : Parcel) : Prop where
  label : draft.label.Describes p.label
  conditions : (draft.conditions.getD {}).Describes p

theorem LabelDraft.yields_check_iff {draft : LabelDraft} {parcel : String}
    {result : Option Label} :
    (draft.check parcel).Yields mode result ↔
      ∃ label, result = some label ∧ draft.MeetsSchema ∧ draft.Describes label := by
  simp only [← Label.ofDraft_eq_ok_iff]
  unfold check
  cases Label.ofDraft draft with
  | ok label => simp [eq_comm]
  | error reason => simp

/-- A parcel that is accepted is called by its own name. -/
theorem ParcelDraft.display_eq {draft : ParcelDraft} {p : Parcel} {position : Nat}
    (hlabel : draft.label.MeetsSchema) (h : draft.label.Describes p.label) :
    draft.display position = p.name := by
  rw [display, if_neg (Text.not_isBlank_iff.2 hlabel.name), Parcel.name, h.name]

theorem ParcelDraft.yields_check_iff {draft : ParcelDraft} {declared : List GroupName}
    {position : Nat} {seen : List String} {result : Option Parcel} :
    (draft.check declared position seen).Yields mode result ↔
      ∃ p, result = some p ∧ draft.label.MeetsSchema ∧ draft.Describes p ∧ p.name ∉ seen ∧
        p.NamesDeclared declared := by
  unfold check
  rw [yields_bind]
  constructor
  · rintro ⟨label?, hlabel?, h⟩
    obtain ⟨label, rfl, hmeets, hlabel⟩ := LabelDraft.yields_check_iff.1 hlabel?
    obtain ⟨_, hfresh, h⟩ := yields_bind.1 h
    obtain ⟨⟨memberOf, requires⟩, hplace, h⟩ := yields_bind.1 h
    obtain ⟨hconditions, hdeclared⟩ :=
      (ConditionsDraft.yields_check_iff (p := { label, memberOf, requires })).1 hplace
    refine ⟨{ label, memberOf, requires }, (Check.yields_pure.1 h).symm, hmeets,
      ⟨hlabel, hconditions⟩, ?_, hdeclared⟩
    rwa [Check.yields_reportIf,
      display_eq (p := { label, memberOf, requires }) hmeets hlabel] at hfresh
  · rintro ⟨p, rfl, hmeets, hdescribes, hfresh, hdeclared⟩
    refine ⟨some p.label, LabelDraft.yields_check_iff.2 ⟨_, rfl, hmeets, hdescribes.label⟩,
      yields_bind.2 ⟨(), ?_, yields_bind.2 ⟨(p.memberOf, p.requires), ?_, ?_⟩⟩⟩
    · rwa [Check.yields_reportIf, display_eq hmeets hdescribes.label]
    · exact ConditionsDraft.yields_check_iff.2 ⟨hdescribes.conditions, hdeclared⟩
    · exact Check.yields_pure.2 rfl

/-- Parcels are accepted when their labels meet the schema, each is what its draft describes and
names declared groups, and no two share a name. -/
theorem yields_checkParcels_iff {drafts : List ParcelDraft} {declared : List GroupName}
    {position : Nat} {seen : List String} {parcels : List Parcel} :
    (checkParcels declared position seen drafts).Yields mode parcels ↔
      (∀ draft ∈ drafts, draft.label.MeetsSchema) ∧
        List.Forall₂ ParcelDraft.Describes drafts parcels ∧
        ((parcels.map (·.name)).Nodup ∧ (parcels.map (·.name)).Disjoint seen) ∧
        ∀ p ∈ parcels, p.NamesDeclared declared := by
  induction drafts generalizing position seen parcels with
  | nil =>
    rw [checkParcels, Check.yields_pure, List.forall₂_nil_left_iff]
    constructor
    · rintro rfl
      simp
    · rintro ⟨-, rfl, -⟩
      rfl
  | cons draft rest ih =>
    rw [checkParcels, yields_bind, List.forall₂_cons_left_iff, List.forall_mem_cons]
    constructor
    · rintro ⟨result, hresult, h⟩
      obtain ⟨p, rfl, hmeets, hdescribes, hfresh, hdeclared⟩ :=
        ParcelDraft.yields_check_iff.1 hresult
      obtain ⟨more, hmore, h⟩ := yields_bind.1 h
      rw [ParcelDraft.display_eq hmeets hdescribes.label] at hmore
      obtain ⟨hmeetsRest, hrest, hnew, hmoreDeclared⟩ := ih.1 hmore
      rw [← Check.yields_pure.1 h, Option.toList_some, List.singleton_append,
        List.forall_mem_cons]
      exact ⟨⟨hmeets, hmeetsRest⟩, ⟨p, more, hdescribes, hrest, rfl⟩,
        nodup_disjoint_cons_iff.2 ⟨hfresh, hnew⟩, hdeclared, hmoreDeclared⟩
    · rintro ⟨⟨hmeets, hmeetsRest⟩, ⟨p, more, hdescribes, hrest, rfl⟩, hnames, hdeclared⟩
      obtain ⟨hfresh, hnew⟩ := nodup_disjoint_cons_iff.1 hnames
      rw [List.forall_mem_cons] at hdeclared
      refine ⟨some p, ParcelDraft.yields_check_iff.2
        ⟨p, rfl, hmeets, hdescribes, hfresh, hdeclared.1⟩, yields_bind.2 ⟨more, ?_, ?_⟩⟩
      · rw [ParcelDraft.display_eq hmeets hdescribes.label]
        exact ih.2 ⟨hmeetsRest, hrest, hnew, hdeclared.2⟩
      · exact Check.yields_pure.2 rfl

end Bindle
