import Bindle.Json.Fields
import Bindle.Proofs.Sorted.Lookup
import Mathlib.Data.List.Forall2

/-!
# What readers of JSON take

A reader is described by two things: the values that it takes, and how the result hangs together
with the value it was taken from. Both are stated for values in which no object has a key twice,
for only then is a member found under its key, and in which records are objects, for only then are
there keys. A reader of records takes its fields one by one, and each of them depends on one key
alone; so an object is taken exactly when each key is known and each member is admitted by the
field of that key.

* `HasDistinctKeys`, `Kind.NamesFields`: the values that the statements are about.
* `Kind`, `Field`, `IsText`, `IsFlag`, `IsWord64`, `IsListOf`, `IsMapOf`, `IsRecord`: the values
  that are taken.
* `ShowsText`, `ShowsFlag`, `ShowsWord64`, `ShowsListOf`, `ShowsMapOf`, `ShowsOptional`,
  `ShowsDefaulted`, `ShowsRecord`: what is taken out of them.
* `Succeeds`: a computation succeeds on a condition, with a result of which something is true.
* `Decodes`: a reader is described; `decodes_listOf?`, `decodes_mapOf?`, `decodes_record` put
  readers together.
* `ReadsFields`: a computation reads the fields of a table, one after the other.
-/

namespace Bindle.Json

open StringMap (lookup_eq_some_iff_mem lookup_eq_none_iff_not_mem)

/-- No object in the value has a key twice. -/
inductive HasDistinctKeys : Json → Prop where
  | null : HasDistinctKeys .null
  | bool (b : Bool) : HasDistinctKeys (.bool b)
  | int (n : Int) : HasDistinctKeys (.int n)
  | decimal (literal : String) : HasDistinctKeys (.decimal literal)
  | string (s : String) : HasDistinctKeys (.string s)
  | array {items : List Json} (h : ∀ item ∈ items, HasDistinctKeys item) :
    HasDistinctKeys (.array items)
  | object {members : List (String × Json)} (hkeys : (members.map Prod.fst).Nodup)
    (h : ∀ m ∈ members, HasDistinctKeys m.2) : HasDistinctKeys (.object members)

attribute [simp] HasDistinctKeys.null HasDistinctKeys.bool HasDistinctKeys.int
  HasDistinctKeys.decimal HasDistinctKeys.string

@[simp]
theorem hasDistinctKeys_array {items : List Json} :
    (Json.array items).HasDistinctKeys ↔ ∀ item ∈ items, item.HasDistinctKeys := by
  constructor
  · rintro ⟨⟩
    assumption
  · exact .array

@[simp]
theorem hasDistinctKeys_object {members : List (String × Json)} :
    (Json.object members).HasDistinctKeys ↔
      (members.map Prod.fst).Nodup ∧ ∀ m ∈ members, m.2.HasDistinctKeys := by
  constructor
  · rintro ⟨⟩
    exact ⟨‹_›, ‹_›⟩
  · rintro ⟨hkeys, h⟩
    exact .object hkeys h

/-! ## The values that are taken -/

/-- A text. -/
def IsText (j : Json) : Prop :=
  ∃ s, j = .string s

/-- A truth value. -/
def IsFlag (j : Json) : Prop :=
  ∃ b, j = .bool b

/-- A natural number below 2 ^ 64. -/
def IsWord64 (j : Json) : Prop :=
  ∃ n < UInt64.size, j = .nat n

/-- An array of such values. -/
def IsListOf (P : Json → Prop) (j : Json) : Prop :=
  ∃ items, j = .array items ∧ ∀ item ∈ items, P item

/-- An object of such values, under any keys. -/
def IsMapOf (P : Json → Prop) (j : Json) : Prop :=
  ∃ members, j = .object members ∧ ∀ m ∈ members, P m.2

/-- A kind of values. -/
structure Kind where
  /-- The values of this kind. -/
  Takes : Json → Prop
  /-- The values in which no array stands where a record belongs. -/
  NamesFields : Json → Prop

/-- A field of a record: its key, whether it may be null, and what else may stand there. -/
structure Field where
  key : String
  mayBeNull : Bool
  kind : Kind

/-- A field that may be missing or null. -/
abbrev Field.optional (key : String) (kind : Kind) : Field :=
  ⟨key, true, kind⟩

/-- A field that may be missing, but is not null. -/
abbrev Field.defaulted (key : String) (kind : Kind) : Field :=
  ⟨key, false, kind⟩

/-- The value may stand in the field. -/
def Field.Admits (f : Field) (value : Json) : Prop :=
  f.mayBeNull = true ∧ value = .null ∨ f.kind.Takes value

/-- An object with fields of the record only, each with a value that may stand there. -/
def IsRecord (fields : List Field) (j : Json) : Prop :=
  ∃ members, j = .object members ∧ ∀ m ∈ members, ∃ f ∈ fields, f.key = m.1 ∧ f.Admits m.2

/-- No array stands in the place of the record, nor in that of a record within it. -/
def NamesFields (fields : List Field) (j : Json) : Prop :=
  (∀ values, j ≠ .array values) ∧ ∀ members, j = .object members → ∀ f ∈ fields, ∀ value,
    (f.key, value) ∈ members → f.kind.NamesFields value

namespace Kind

/-- Values without records in them. -/
def plain (P : Json → Prop) : Kind where
  Takes := P
  NamesFields _ := True

/-- Arrays of values of one kind. -/
def listOf (kind : Kind) : Kind where
  Takes := IsListOf kind.Takes
  NamesFields j := ∀ items, j = .array items → ∀ item ∈ items, kind.NamesFields item

/-- Objects of values of one kind, under any keys. -/
def mapOf (kind : Kind) : Kind where
  Takes := IsMapOf kind.Takes
  NamesFields j := ∀ members, j = .object members → ∀ m ∈ members, kind.NamesFields m.2

/-- Records with these fields. -/
def record (fields : List Field) : Kind where
  Takes := IsRecord fields
  NamesFields := Json.NamesFields fields

/-- Texts. -/
abbrev text : Kind := plain IsText

/-- Truth values. -/
abbrev flag : Kind := plain IsFlag

/-- Natural numbers below 2 ^ 64. -/
abbrev word64 : Kind := plain IsWord64

/-- All values. -/
abbrev anything : Kind := plain fun _ => True

end Kind

/-! ## What is taken out of them -/

/-- The value is this text. -/
def ShowsText (j : Json) (s : String) : Prop :=
  j = .string s

/-- The value is this truth value. -/
def ShowsFlag (j : Json) (b : Bool) : Prop :=
  j = .bool b

/-- The value is this number. -/
def ShowsWord64 (j : Json) (n : UInt64) : Prop :=
  j = .nat n.toNat

section

variable {α : Type} (R : Json → α → Prop)

/-- The value is an array whose items show these, one by one and in order. -/
def ShowsListOf (j : Json) (as : List α) : Prop :=
  ∃ items, j = .array items ∧ List.Forall₂ R items as

/-- The value is an object whose members show the entries of the map, each under its own key. -/
def ShowsMapOf (j : Json) (map : StringMap α) : Prop :=
  ∃ members entries, j = .object members ∧ entries.Perm map.entries ∧
    List.Forall₂ (fun (m : String × Json) (e : String × α) => m.1 = e.1 ∧ R m.2 e.2)
      members entries

/-- What stands under a key of which the value may be missing or null. -/
inductive ShowsOptional (members : List (String × Json)) (key : String) : Option α → Prop where
  | missing (h : ∀ value, (key, value) ∉ members) : ShowsOptional members key none
  | null (h : (key, .null) ∈ members) : ShowsOptional members key none
  | given {value : Json} {a : α} (h : (key, value) ∈ members) (hvalue : value ≠ .null)
    (ha : R value a) : ShowsOptional members key (some a)

/-- What stands under a key of which the value counts as `otherwise` when it is missing. -/
inductive ShowsDefaulted (members : List (String × Json)) (key : String) (otherwise : α) :
    α → Prop where
  | missing (h : ∀ value, (key, value) ∉ members) : ShowsDefaulted members key otherwise otherwise
  | given {value : Json} {a : α} (h : (key, value) ∈ members) (ha : R value a) :
    ShowsDefaulted members key otherwise a

/-- The value is an object with members that show this. -/
def ShowsRecord (S : List (String × Json) → α → Prop) (j : Json) (a : α) : Prop :=
  ∃ members, j = .object members ∧ S members a

end

/-! ## Computations that may fail -/

variable {α β : Type}

/-- The computation succeeds on this condition, and the result has this property. -/
structure Succeeds (x : Option α) (A : Prop) (R : α → Prop) : Prop where
  exists_iff : (∃ a, x = some a) ↔ A
  result : ∀ a, x = some a → R a

namespace Succeeds

variable {x : Option α} {f : α → Option β} {A B : Prop} {R : α → Prop} {S : β → Prop}

theorem pure {a : α} (h : R a) : Succeeds (Pure.pure a) True R where
  exists_iff := iff_of_true ⟨a, rfl⟩ trivial
  result := by
    rintro _ ⟨⟩
    exact h

/-- One computation after another, when the condition of the second does not depend on the result
of the first. -/
theorem bind (hx : Succeeds x A R) (hf : ∀ a, R a → Succeeds (f a) B S) :
    Succeeds (x >>= f) (A ∧ B) S where
  exists_iff := by
    constructor
    · rintro ⟨b, hb⟩
      obtain ⟨a, ha, hb⟩ := Option.bind_eq_some_iff.1 hb
      exact ⟨hx.exists_iff.1 ⟨a, ha⟩, (hf a (hx.result a ha)).exists_iff.1 ⟨b, hb⟩⟩
    · rintro ⟨hA, hB⟩
      obtain ⟨a, ha⟩ := hx.exists_iff.2 hA
      obtain ⟨b, hb⟩ := (hf a (hx.result a ha)).exists_iff.2 hB
      exact ⟨b, Option.bind_eq_some_iff.2 ⟨a, ha, hb⟩⟩
  result := by
    intro b hb
    obtain ⟨a, ha, hb⟩ := Option.bind_eq_some_iff.1 hb
    exact (hf a (hx.result a ha)).result b hb

theorem map (hx : Succeeds x A R) {g : α → β} (hg : ∀ a, R a → S (g a)) :
    Succeeds (x.map g) A S where
  exists_iff := by
    rw [← hx.exists_iff]
    simp [Option.map_eq_some_iff]
  result := by
    intro b hb
    obtain ⟨a, ha, rfl⟩ := Option.map_eq_some_iff.1 hb
    exact hg a (hx.result a ha)

theorem of_none (hA : ¬A) : Succeeds (none : Option α) A R where
  exists_iff := iff_of_false (by simp) hA
  result := by simp

theorem congr (hx : Succeeds x A R) (hA : A ↔ B) : Succeeds x B R :=
  ⟨hx.exists_iff.trans hA, hx.result⟩

theorem imp {T : α → Prop} (hx : Succeeds x A R) (hR : ∀ a, R a → T a) : Succeeds x A T :=
  ⟨hx.exists_iff, fun a ha => hR a (hx.result a ha)⟩

/-- A list is gone through when each of its members succeeds. -/
theorem mapM {γ : Type} {read : γ → Option α} {P : γ → Prop} {R : γ → α → Prop} {l : List γ}
    (h : ∀ c ∈ l, Succeeds (read c) (P c) (R c)) :
    Succeeds (l.mapM read) (∀ c ∈ l, P c) (List.Forall₂ R l) := by
  induction l with
  | nil => simpa using pure (R := List.Forall₂ R []) .nil
  | cons c l ih =>
    obtain ⟨hc, hl⟩ := List.forall_mem_cons.1 h
    rw [List.mapM_cons, List.forall_mem_cons]
    exact hc.bind fun a ha => ((ih hl).bind fun as has => pure (.cons ha has)).congr (by simp)

end Succeeds

/-! ## Readers -/

/-- The reader takes the values of the kind, and takes out of them what `R` says. -/
def Decodes (read : Json → Option α) (kind : Kind) (R : Json → α → Prop) : Prop :=
  ∀ j, j.HasDistinctKeys → kind.NamesFields j → Succeeds (read j) (kind.Takes j) (R j)

theorem decodes_text? : Decodes text? .text ShowsText := by
  intro j _ _
  cases j <;> constructor <;> simp [text?, Kind.plain, IsText, ShowsText]

theorem decodes_flag? : Decodes flag? .flag ShowsFlag := by
  intro j _ _
  cases j <;> constructor <;> simp [flag?, Kind.plain, IsFlag, ShowsFlag]

theorem decodes_word64? : Decodes word64? .word64 ShowsWord64 := by
  intro j _ _
  show Succeeds (word64? j) (IsWord64 j) (ShowsWord64 j)
  cases j with
  | int n =>
    cases n with
    | ofNat n =>
      by_cases hlt : n < UInt64.size
      · rw [word64?, if_pos hlt]
        refine (Succeeds.pure ?_).congr (iff_of_true trivial ⟨n, hlt, rfl⟩)
        simp [ShowsWord64, nat, Nat.mod_eq_of_lt hlt]
      · rw [word64?, if_neg hlt]
        refine .of_none ?_
        rintro ⟨m, hm, heq⟩
        obtain rfl : n = m := Int.ofNat.inj (Json.int.inj heq)
        exact hlt hm
    | negSucc n => exact .of_none (by simp [IsWord64, nat])
  | _ => exact .of_none (by simp [IsWord64, nat])

variable {read : Json → Option α} {kind : Kind} {R : Json → α → Prop}

theorem decodes_listOf? (hread : Decodes read kind R) :
    Decodes (listOf? read) kind.listOf (ShowsListOf R) := by
  intro j hj hnames
  cases hj with
  | @array items h =>
    have hitems : ∀ item ∈ items, Succeeds (read item) (kind.Takes item) (R item) :=
      fun item hitem => hread item (h item hitem) (hnames items rfl item hitem)
    refine ((Succeeds.mapM hitems).congr ?_).imp fun as has => ⟨items, rfl, has⟩
    simp [Kind.listOf, IsListOf]
  | _ => exact .of_none (by simp [Kind.listOf, IsListOf])

/-- The keys of the entries that are read are those of the members. -/
theorem map_fst_eq_of_forall₂ {members : List (String × Json)} {entries : List (String × α)}
    (h : List.Forall₂ (fun (m : String × Json) (e : String × α) => m.1 = e.1 ∧ R m.2 e.2)
      members entries) : entries.map Prod.fst = members.map Prod.fst := by
  induction h with
  | nil => rfl
  | cons hhead _ ih => simp [hhead.1, ih]

theorem decodes_mapOf? (hread : Decodes read kind R) :
    Decodes (mapOf? read) kind.mapOf (ShowsMapOf R) := by
  intro j hj hnames
  cases hj with
  | @object members hkeys h =>
    have hentries := Succeeds.mapM fun m hm =>
      (hread m.2 (h m hm) (hnames members rfl m hm)).map
        (g := (m.1, ·)) (S := fun e => m.1 = e.1 ∧ R m.2 e.2) fun a ha => ⟨rfl, ha⟩
    refine (hentries.bind fun entries hshown => .pure ?_).congr (by simp [Kind.mapOf, IsMapOf])
    refine ⟨members, entries, rfl, ?_, hshown⟩
    exact (StringMap.entries_ofList_perm (map_fst_eq_of_forall₂ hshown ▸ hkeys)).symm
  | _ => exact .of_none (by simp [Kind.mapOf, IsMapOf])

/-! ## Fields -/

/-- Whatever stands under the key of the field may stand there. -/
def Field.AdmitsIn (f : Field) (members : List (String × Json)) : Prop :=
  ∀ value, (f.key, value) ∈ members → f.Admits value

/-- Records within what stands under the key of the field are objects. -/
def Field.NamesFieldsIn (f : Field) (members : List (String × Json)) : Prop :=
  ∀ value, (f.key, value) ∈ members → f.kind.NamesFields value

variable {members : List (String × Json)} {key : String}

/-- With different keys, only what is found under the key of a field stands there. -/
theorem Field.admitsIn_iff {f : Field} (hkeys : (members.map Prod.fst).Nodup) :
    f.AdmitsIn members ↔ ∀ value, members.lookup f.key = some value → f.Admits value := by
  simp only [AdmitsIn, lookup_eq_some_iff_mem hkeys]

/-- A value that is not null is read. -/
theorem optional_of_ne_null {value : Json} (read : Json → Option α)
    (h : members.lookup key = some value) (hvalue : value ≠ .null) :
    optional members key read = (read value).map some := by
  unfold optional
  rw [h]
  cases value with
  | null => exact absurd rfl hvalue
  | _ => rfl

/-- The members of an object that has no key twice, all the way down. -/
structure AreDistinct (members : List (String × Json)) : Prop where
  keys : (members.map Prod.fst).Nodup
  values : ∀ m ∈ members, m.2.HasDistinctKeys

theorem AreDistinct.succeeds_optional (h : AreDistinct members) (hread : Decodes read kind R)
    (hnames : (Field.optional key kind).NamesFieldsIn members) :
    Succeeds (optional members key read) ((Field.optional key kind).AdmitsIn members)
      (ShowsOptional R members key) := by
  rw [Field.admitsIn_iff h.keys]
  cases hfound : members.lookup key with
  | none =>
    rw [optional, hfound]
    refine (Succeeds.pure (.missing ?_)).congr (by simp)
    exact (lookup_eq_none_iff_not_mem h.keys).1 hfound
  | some value =>
    have hmem := (lookup_eq_some_iff_mem h.keys).1 hfound
    by_cases hnull : value = .null
    · rw [hnull] at hmem hfound
      rw [optional, hfound, hnull]
      exact (Succeeds.pure (.null hmem)).congr (by simp [Field.Admits])
    · rw [optional_of_ne_null read hfound hnull]
      have hvalue := hread value (h.values _ hmem) (hnames value hmem)
      refine (hvalue.map fun a ha => .given hmem hnull ha).congr ?_
      simp [Field.Admits, hnull]

theorem AreDistinct.succeeds_defaulted (h : AreDistinct members) (hread : Decodes read kind R)
    (otherwise : α) (hnames : (Field.defaulted key kind).NamesFieldsIn members) :
    Succeeds (defaulted members key otherwise read) ((Field.defaulted key kind).AdmitsIn members)
      (ShowsDefaulted R members key otherwise) := by
  rw [Field.admitsIn_iff h.keys, defaulted]
  cases hfound : members.lookup key with
  | none =>
    refine (Succeeds.pure (.missing ?_)).congr (by simp)
    exact (lookup_eq_none_iff_not_mem h.keys).1 hfound
  | some value =>
    have hmem := (lookup_eq_some_iff_mem h.keys).1 hfound
    have hvalue := hread value (h.values _ hmem) (hnames value hmem)
    refine (hvalue.congr ?_).imp fun a ha => .given hmem ha
    simp [Field.Admits]

/-! ## Tables of fields -/

/-- The computation reads the fields of a table: it succeeds when each of them admits what stands
there, and then `S` is true of the result. -/
def ReadsFields (members : List (String × Json)) (fields : List Field) (x : Option α)
    (S : α → Prop) : Prop :=
  (∀ f ∈ fields, f.NamesFieldsIn members) →
    Succeeds x (∀ f ∈ fields, f.AdmitsIn members) S

section

variable {fields : List Field} {S : β → Prop}

theorem ReadsFields.pure {b : β} (hb : S b) : ReadsFields members [] (Pure.pure b) S :=
  fun _ => (Succeeds.pure hb).congr (by simp)

/-- A field of which nothing is read may hold anything. -/
theorem ReadsFields.unread {x : Option β} (hx : ReadsFields members fields x S) :
    ReadsFields members (.optional key .anything :: fields) x S := by
  intro hnames
  have hanything : (Field.optional key .anything).AdmitsIn members := fun _ _ => .inr trivial
  refine (hx (List.forall_mem_cons.1 hnames).2).congr ?_
  rw [List.forall_mem_cons, and_iff_right hanything]

/-- One field is read, and then the others. -/
theorem AreDistinct.optional {f : Option α → Option β} (h : AreDistinct members)
    (hread : Decodes read kind R)
    (hf : ∀ a, ShowsOptional R members key a → ReadsFields members fields (f a) S) :
    ReadsFields members (.optional key kind :: fields)
      (Json.optional members key read >>= f) S := by
  intro hnames
  obtain ⟨hname, hnames⟩ := List.forall_mem_cons.1 hnames
  rw [List.forall_mem_cons]
  exact (h.succeeds_optional hread hname).bind fun a ha => hf a ha hnames

theorem AreDistinct.defaulted {f : α → Option β} (h : AreDistinct members)
    (hread : Decodes read kind R) {otherwise : α}
    (hf : ∀ a, ShowsDefaulted R members key otherwise a → ReadsFields members fields (f a) S) :
    ReadsFields members (.defaulted key kind :: fields)
      (Json.defaulted members key otherwise read >>= f) S := by
  intro hnames
  obtain ⟨hname, hnames⟩ := List.forall_mem_cons.1 hnames
  rw [List.forall_mem_cons]
  exact (h.succeeds_defaulted hread otherwise hname).bind fun a ha => hf a ha hnames

end

/-! ## Records -/

/-- When the fields have different keys, the members of a record can be looked at field by
field. -/
theorem forall_mem_admits_iff {fields : List Field} (hfields : (fields.map (·.key)).Nodup) :
    (∀ m ∈ members, ∃ f ∈ fields, f.key = m.1 ∧ f.Admits m.2) ↔
      (∀ m ∈ members, m.1 ∈ fields.map (·.key)) ∧ ∀ f ∈ fields, f.AdmitsIn members := by
  constructor
  · intro h
    refine ⟨fun m hm => ?_, fun f hf value hvalue => ?_⟩
    · obtain ⟨f, hf, hkey, -⟩ := h m hm
      exact List.mem_map.2 ⟨f, hf, hkey⟩
    · obtain ⟨g, hg, hkey, hadmits⟩ := h _ hvalue
      obtain rfl := List.inj_on_of_nodup_map hfields hg hf hkey
      exact hadmits
  · rintro ⟨hknown, hadmits⟩ ⟨key, value⟩ hm
    obtain ⟨f, hf, rfl⟩ := List.mem_map.1 (hknown _ hm)
    exact ⟨f, hf, rfl, hadmits f hf value hm⟩

/-- What can be told of a field without its value. -/
def Field.toKey (f : Field) : FieldKey :=
  ⟨f.key, !f.mayBeNull⟩

/-- An object is a record when all of its keys are known. -/
theorem record?_object {surplus : Surplus} {fields : List Field} :
    (Json.object members).record? surplus (fields.map Field.toKey) =
      if ∀ m ∈ members, m.1 ∈ fields.map (·.key) then some members else none := by
  have hknown : ∀ m : String × Json, (fields.map Field.toKey).any (·.key == m.1) = true ↔
      m.1 ∈ fields.map (·.key) := by
    intro m
    simp [Field.toKey]
  simp only [record?, List.all_eq_true, hknown]

/-- An array of values for the first fields is read like the object that names these fields, if the
others have defaults. -/
theorem record?_array {surplus : Surplus} {known : List FieldKey} {values : List Json}
    (h : values.length ≤ known.length) :
    (Json.array values).record? surplus known =
      if (known.drop values.length).all (·.hasDefault) = true then
        (Json.object ((known.map (·.key)).zip values)).record? surplus known
      else none := by
  have hknown : ∀ m ∈ (known.map (·.key)).zip values, known.any (·.key == m.1) = true := by
    intro m hm
    obtain ⟨f, hf, hkey⟩ := List.mem_map.1 (List.of_mem_zip hm).1
    exact List.any_eq_true.2 ⟨f, hf, beq_iff_eq.2 hkey⟩
  simp only [record?, List.all_eq_true.2 hknown, if_true, decide_eq_true h, Bool.or_true,
    Bool.and_true]

/-- A reader that first asks for a record with known keys, and then takes its fields, takes exactly
the records with these fields. -/
theorem decodes_record {surplus : Surplus} {known : List FieldKey} {fields : List Field}
    {build : List (String × Json) → Option α} {S : List (String × Json) → α → Prop}
    (hknown : fields.map Field.toKey = known) (hnodup : (known.map (·.key)).Nodup)
    (hbuild : ∀ members, AreDistinct members →
      ReadsFields members fields (build members) (S members)) :
    Decodes (fun j => j.record? surplus known >>= build) (.record fields) (ShowsRecord S) := by
  intro j hj hnames
  obtain ⟨hobject, hwithin⟩ := hnames
  show Succeeds _ (IsRecord fields j) _
  cases hj with
  | @object members hkeys h =>
    subst hknown
    have hfields : (fields.map (·.key)).Nodup := by
      rwa [List.map_map] at hnodup
    have hrecord : IsRecord fields (.object members) ↔
        ∀ m ∈ members, ∃ f ∈ fields, f.key = m.1 ∧ f.Admits m.2 := by
      simp [IsRecord]
    rw [hrecord, forall_mem_admits_iff hfields]
    beta_reduce
    rw [record?_object]
    split
    · rename_i hall
      rw [and_iff_right hall]
      exact (hbuild members ⟨hkeys, h⟩ (hwithin members rfl)).imp fun a ha => ⟨members, rfl, ha⟩
    · rename_i hall
      exact .of_none fun hboth => hall hboth.1
  | @array values h => exact absurd rfl (hobject values)
  | _ => exact .of_none (by simp [IsRecord])

end Bindle.Json
