import Bindle.CommandLine.Arguments
import Mathlib.Data.List.TakeWhile

/-!
# What the options of a command line say

`Bindle.CommandLine.Arguments` reads a command line from left to right, with a value pending that is
looked at late. Here is what it comes to, without a reader: a command line spells a list of items,
in front of the name of the command and behind it. Each item is allowed there, the value of an
option fits it, and of what may be given once nothing is given again. Then the command line is read
as what its items say: the values of each option, in the order in which they stand.

One step lemma says what one more item does to what is said, another that the arguments of an item
lead the reader from what is said before it to what is said with it; the rest is an induction on
how the items are spelled.

* `Item`, `Spells`, `IsLevel`: the items, the arguments for them, and which of them go together.
* `Chooses`, `parseChoice?_eq_some_iff`: the choice that a text gives.
* `said`: what items say; `set_said` is the step.
* `Reading.Consumes`, `Spells.consumes`: how the reader goes through the arguments.
* `Invocation.parse_eq_ok`: what a whole command line asks for.
-/

namespace Bindle.CommandLine

/-! ## Choices -/

/-- The text gives this choice: what stands before its first equals sign is the group and what
stands after it is the parcel, both without the blanks around them. -/
def Chooses (text : String) (choice : String × String) : Prop :=
  ∃ key value, text.toList = key ++ '=' :: value ∧ '=' ∉ key ∧
    Text.trim (String.ofList key) = choice.1 ∧ Text.trim (String.ofList value) = choice.2 ∧
    choice.1 ≠ "" ∧ choice.2 ≠ ""

section Choosing

variable {key value : List Char} {text : String} {choice : String × String}

theorem forall_ne_of_not_mem (h : '=' ∉ key) : ∀ c ∈ key, decide (c ≠ '=') = true :=
  fun _ hc => decide_eq_true fun heq => h (heq ▸ hc)

/-- A text is divided at its first equals sign. -/
theorem splitEquals_append (h : '=' ∉ key) :
    splitEquals (key ++ '=' :: value) = (key, some value) := by
  have hall := forall_ne_of_not_mem h
  unfold splitEquals
  rw [List.dropWhile_append_of_pos hall, List.takeWhile_append_of_pos hall]
  simp

theorem splitEquals_eq_none (h : '=' ∉ key) : splitEquals key = (key, none) := by
  rw [splitEquals, List.dropWhile_eq_nil_iff.2 (forall_ne_of_not_mem h)]

theorem parseChoice?_of_toList (h : text.toList = key ++ '=' :: value)
    (hkey : '=' ∉ key) :
    parseChoice? text =
      if Text.trim (String.ofList key) = "" ∨ Text.trim (String.ofList value) = "" then none
      else some (Text.trim (String.ofList key), Text.trim (String.ofList value)) := by
  rw [parseChoice?, h, splitEquals_append hkey]

/-- The choices that are read are those that texts give. -/
theorem parseChoice?_eq_some_iff : parseChoice? text = some choice ↔ Chooses text choice := by
  by_cases hmem : '=' ∈ text.toList
  · obtain ⟨key, value, htext, hkey⟩ := List.eq_append_cons_of_mem hmem
    rw [parseChoice?_of_toList htext hkey]
    constructor
    · intro h
      split at h
      · cases h
      · rename_i hne
        cases h
        exact ⟨key, value, htext, hkey, rfl, rfl, fun h => hne (.inl h), fun h => hne (.inr h)⟩
    · rintro ⟨key', value', htext', hkey', hgroup, hparcel, hne⟩
      have hsplit : (key, some value) = (key', some value') := by
        rw [← splitEquals_append hkey, ← htext, htext', splitEquals_append hkey']
      cases hsplit
      rw [hgroup, hparcel, if_neg (by simp [hne])]
  · constructor
    · rw [parseChoice?, splitEquals_eq_none hmem]
      nofun
    · rintro ⟨key, value, htext, -⟩
      exact absurd (by simp [htext]) hmem

end Choosing

/-! ## Items -/

namespace OptionName

/-- The long name of an option. -/
def toText : OptionName → String
  | .format => "format"
  | .verbose => "verbose"
  | .config => "config"
  | .version => "version"
  | .optIn => "with"
  | .choose => "choose"
  | .choices => "choices"
  | .anyOf => "any-of"
  | .allowYanked => "allow-yanked"

theorem ofLong?_toText (o : OptionName) : ofLong? o.toText = some o := by
  cases o <;> decide

/-- The text names the option, by its long name or by its letter. -/
def IsNamed (o : OptionName) (text : String) : Prop :=
  text = "--" ++ o.toText ∨ ∃ c, ofShort? c = some o ∧ text = String.ofList ['-', c]

theorem isNamed_toText (o : OptionName) : o.IsNamed ("--" ++ o.toText) :=
  .inl rfl

theorem IsNamed.head? {o : OptionName} {text : String} (h : o.IsNamed text) :
    text.toList.head? = some '-' := by
  rcases h with rfl | ⟨c, -, rfl⟩ <;> simp

/-- Whether the option may be given more than once. -/
def isRepeatable : OptionName → Bool
  | .optIn | .choose => true
  | _ => false

/-- The option has a value, and this can be it. -/
def Takes (o : OptionName) (value : String) : Prop :=
  match o with
  | .format => ∃ format, OutputFormat.ofText? value = some format
  | .anyOf => ∃ reading, AnyOfReading.ofText? value = some reading
  | .config | .choices => value ≠ ""
  | .optIn => True
  | .choose => ∃ choice, Chooses value choice
  | .verbose | .version | .allowYanked => False

end OptionName

theorem OptionName.Takes.takesValue {o : OptionName} {value : String} (h : o.Takes value) :
    o.takesValue = true := by
  cases o with
  | verbose => cases h
  | version => cases h
  | allowYanked => cases h
  | _ => rfl

/-- What one or two arguments give. -/
inductive Item where
  /-- An option with its value. -/
  | option (o : OptionName) (value : String)
  /-- An option without a value. -/
  | switch (o : OptionName)
  /-- The path of the invoice. -/
  | invoice (path : String)
  deriving DecidableEq

/-- The argument does not look like an option. -/
def IsPlain (text : String) : Prop :=
  text.toList.head? = some '-' → text.toList = ['-']

/-- The arguments spell the items: an option has its value behind an equals sign or in the next
argument. -/
inductive Spells : List Item → List String → Prop
  | nil : Spells [] []
  | attached {o : OptionName} {name value : String} {items : List Item} {texts : List String}
      (hname : o.IsNamed name) (h : Spells items texts) :
      Spells (.option o value :: items) ((name ++ "=" ++ value) :: texts)
  | apart {o : OptionName} {name value : String} {items : List Item} {texts : List String}
      (hname : o.IsNamed name) (hplain : IsPlain value) (h : Spells items texts) :
      Spells (.option o value :: items) (name :: value :: texts)
  | switch {o : OptionName} {name : String} {items : List Item} {texts : List String}
      (hname : o.IsNamed name) (h : Spells items texts) :
      Spells (.switch o :: items) (name :: texts)
  | invoice {path : String} {items : List Item} {texts : List String}
      (hplain : IsPlain path) (h : Spells items texts) :
      Spells (.invoice path :: items) (path :: texts)

namespace Item

/-- The item may stand behind the command, or in front of one. -/
def IsAllowed (command : Option CommandName) : Item → Prop
  | .option o value => o.isAllowed command = true ∧ o.Takes value
  | .switch o => o.isAllowed command = true ∧ (o = .verbose ∨ o = .allowYanked)
  | .invoice path => command ≠ none ∧ path ≠ ""

/-- Both items give what may be given once. -/
def Clashes : Item → Item → Prop
  | .option o _, .option o' _ => o = o' ∧ o.isRepeatable = false
  | .switch o, .switch o' => o = o'
  | .invoice _, .invoice _ => True
  | _, _ => False

end Item

/-- The items go together behind the command, or in front of one. -/
structure IsLevel (command : Option CommandName) (items : List Item) : Prop where
  allowed : ∀ item ∈ items, item.IsAllowed command
  once : items.Pairwise fun a b => ¬a.Clashes b

/-! ## What items say -/

/-- The values of an option, in order. -/
def valuesOf (o : OptionName) (items : List Item) : List String :=
  items.filterMap fun
    | .option o' value => if o' = o then some value else none
    | _ => none

/-- The value of an option that may be given once. -/
def valueOf? (o : OptionName) (items : List Item) : Option String :=
  (valuesOf o items).head?

/-- The paths of the invoice. -/
def invoicesOf (items : List Item) : List String :=
  items.filterMap fun
    | .invoice path => some path
    | _ => none

/-- What items say all together. -/
def said (items : List Item) : Given where
  format := (valueOf? .format items).bind OutputFormat.ofText?
  verbose := .switch .verbose ∈ items
  config := valueOf? .config items
  optIn := valuesOf .optIn items
  choose := (valuesOf .choose items).filterMap parseChoice?
  choices := valueOf? .choices items
  anyOf := (valueOf? .anyOf items).bind AnyOfReading.ofText?
  allowYanked := .switch .allowYanked ∈ items
  invoice := (invoicesOf items).head?

section Saying

variable {o : OptionName} {value path : String} {items : List Item} {command : Option CommandName}

theorem valuesOf_concat_option {o' : OptionName} :
    valuesOf o' (items ++ [.option o value]) =
      if o = o' then valuesOf o' items ++ [value] else valuesOf o' items := by
  rw [valuesOf, List.filterMap_append]
  split
  · rename_i heq
    simp [valuesOf, heq]
  · rename_i hne
    simp [valuesOf, hne]

theorem valuesOf_concat_switch {o' : OptionName} :
    valuesOf o' (items ++ [.switch o]) = valuesOf o' items := by
  simp [valuesOf]

theorem valuesOf_concat_invoice {o' : OptionName} :
    valuesOf o' (items ++ [.invoice path]) = valuesOf o' items := by
  simp [valuesOf]

theorem invoicesOf_concat_option : invoicesOf (items ++ [.option o value]) = invoicesOf items := by
  simp [invoicesOf]

theorem invoicesOf_concat_switch : invoicesOf (items ++ [.switch o]) = invoicesOf items := by
  simp [invoicesOf]

theorem invoicesOf_concat_invoice :
    invoicesOf (items ++ [.invoice path]) = invoicesOf items ++ [path] := by
  simp [invoicesOf]

theorem mem_valuesOf : value ∈ valuesOf o items ↔ .option o value ∈ items := by
  rw [valuesOf, List.mem_filterMap]
  constructor
  · rintro ⟨item, hitem, hvalue⟩
    cases item with
    | option o' value' =>
      simp only [Option.ite_none_right_eq_some, Option.some.injEq] at hvalue
      rw [← hvalue.1, ← hvalue.2]
      exact hitem
    | switch _ => cases hvalue
    | invoice _ => cases hvalue
  · exact fun h => ⟨_, h, if_pos rfl⟩

theorem mem_invoicesOf : path ∈ invoicesOf items ↔ .invoice path ∈ items := by
  rw [invoicesOf, List.mem_filterMap]
  constructor
  · rintro ⟨item, hitem, hpath⟩
    cases item with
    | option _ _ => cases hpath
    | switch _ => cases hpath
    | invoice _ => exact Option.some.inj hpath ▸ hitem
  · exact fun h => ⟨_, h, rfl⟩

/-- An option that may be given once has no value yet if nothing clashes with it. -/
theorem valuesOf_eq_nil (honce : ∀ item ∈ items, ¬item.Clashes (.option o value))
    (hsingle : o.isRepeatable = false) : valuesOf o items = [] := by
  rw [List.eq_nil_iff_forall_not_mem]
  exact fun earlier hmem => honce _ (mem_valuesOf.1 hmem) ⟨rfl, hsingle⟩

/-- One more option with a value. -/
theorem set_said (htakes : o.Takes value)
    (honce : ∀ item ∈ items, ¬item.Clashes (.option o value)) :
    (said items).set o value = .ok (said (items ++ [.option o value])) := by
  have hnone := valuesOf_eq_nil honce
  cases o with
  | format =>
    obtain ⟨format, hformat⟩ := htakes
    simp [Given.set, said, setOnce, valueOf?, valuesOf_concat_option, invoicesOf_concat_option,
      hnone rfl, hformat]
  | config =>
    have hpath : path? value = some value := if_neg htakes
    simp [Given.set, said, setOnce, valueOf?, valuesOf_concat_option, invoicesOf_concat_option,
      hnone rfl, hpath]
  | choices =>
    have hpath : path? value = some value := if_neg htakes
    simp [Given.set, said, setOnce, valueOf?, valuesOf_concat_option, invoicesOf_concat_option,
      hnone rfl, hpath]
  | anyOf =>
    obtain ⟨reading, hreading⟩ := htakes
    simp [Given.set, said, setOnce, valueOf?, valuesOf_concat_option, invoicesOf_concat_option,
      hnone rfl, hreading]
  | optIn =>
    simp [Given.set, said, valueOf?, valuesOf_concat_option, invoicesOf_concat_option]
  | choose =>
    obtain ⟨choice, hchoice⟩ := htakes
    have hread := parseChoice?_eq_some_iff.2 hchoice
    simp [Given.set, said, valueOf?, valuesOf_concat_option, invoicesOf_concat_option, hread]
  | verbose => cases htakes
  | version => cases htakes
  | allowYanked => cases htakes

/-- One more option without a value. -/
theorem switchOn_said (hswitch : o = .verbose ∨ o = .allowYanked)
    (honce : ∀ item ∈ items, ¬item.Clashes (.switch o)) :
    (said items).switchOn command o = .ok (said (items ++ [.switch o])) := by
  have hnew : .switch o ∉ items := fun hmem => honce _ hmem rfl
  rcases hswitch with rfl | rfl
  · simp [Given.switchOn, said, valueOf?, valuesOf_concat_switch, invoicesOf_concat_switch, hnew]
  · simp [Given.switchOn, said, valueOf?, valuesOf_concat_switch, invoicesOf_concat_switch, hnew]

theorem said_concat_invoice (honce : ∀ item ∈ items, ¬item.Clashes (.invoice path)) :
    (said items).invoice = none ∧
      { said items with invoice := some path } = said (items ++ [.invoice path]) := by
  have hnone : invoicesOf items = [] := by
    rw [List.eq_nil_iff_forall_not_mem]
    exact fun earlier hmem => honce _ (mem_invoicesOf.1 hmem) trivial
  constructor
  · simp [said, hnone]
  · simp [said, valueOf?, valuesOf_concat_invoice, invoicesOf_concat_invoice, hnone]

end Saying

/-! ## Reading what items say -/

namespace Reading

variable {r r' : Reading} {o : OptionName} {value path text : String} {items : List Item}
  {texts rest : List String} {command : Option CommandName}

/-- An argument behind two dashes is a long name. -/
theorem token_of_dashes (hr : r.escaped = false) (cs : List Char) (hcs : cs ≠ [])
    (htext : text.toList = '-' :: '-' :: cs) : r.token text = r.long cs := by
  unfold token
  rw [hr, htext]
  cases cs with
  | nil => exact absurd rfl hcs
  | cons c cs => rfl

/-- An argument behind one dash is letters. -/
theorem token_of_letter (hr : r.escaped = false) {c : Char} (cs : List Char)
    (hc : OptionName.ofShort? c = some o) (htext : text.toList = '-' :: c :: cs) :
    r.token text = r.short (c :: cs) := by
  have hdash : c ≠ '-' := by
    rintro rfl
    cases hc
  unfold token
  rw [hr, htext, if_neg Bool.false_ne_true]
  split <;> simp_all

theorem toText_ne_nil (o : OptionName) : o.toText.toList ≠ [] ∧ '=' ∉ o.toText.toList := by
  cases o <;> decide

theorem token_attached {name : String} (hr : r.escaped = false) (hname : o.IsNamed name)
    (hvalue : o.takesValue = true) : r.token (name ++ "=" ++ value) = r.option o (some value) := by
  rcases hname with rfl | ⟨c, hc, rfl⟩
  · obtain ⟨-, hequals⟩ := toText_ne_nil o
    rw [token_of_dashes hr (o.toText.toList ++ '=' :: value.toList) (by simp) (by simp)]
    simp [long, splitEquals_append hequals, OptionName.ofLong?_toText]
  · rw [token_of_letter hr ('=' :: value.toList) hc (by simp)]
    simp [short, hc, hvalue]

theorem token_apart {name : String} (hr : r.escaped = false) (hname : o.IsNamed name) :
    r.token name = r.option o none := by
  rcases hname with rfl | ⟨c, hc, rfl⟩
  · obtain ⟨hne, hequals⟩ := toText_ne_nil o
    rw [token_of_dashes hr _ hne (by simp)]
    simp [long, splitEquals_eq_none hequals, OptionName.ofLong?_toText]
  · rw [token_of_letter hr [] hc (by simp)]
    cases hvalue : o.takesValue with
    | true => simp [short, hc, hvalue]
    | false =>
      simp only [short, hc, hvalue, Bool.false_eq_true, if_false]
      cases r.option o none <;> rfl

theorem token_plain (hr : r.escaped = false) (hplain : IsPlain text) :
    r.token text = r.plain text := by
  unfold token
  rw [hr, if_neg Bool.false_ne_true]
  split
  · rename_i h
    exact absurd (h.symm.trans (hplain (by rw [h]; rfl))) (by simp)
  · rename_i h
    exact absurd (h.symm.trans (hplain (by rw [h]; rfl))) (by simp)
  · rfl
  · rename_i hdash h
    exact absurd (List.cons.inj (h.symm.trans (hplain (by rw [h]; rfl)))).2 hdash
  · rfl

/-- No command has a name that starts with a dash. -/
theorem command?_of_dash (htext : text.toList.head? = some '-') : r.command? text = none := by
  have hne : ∀ name : String, name.toList.head? ≠ some '-' → text ≠ name :=
    fun name hother heq => hother (heq ▸ htext)
  have hname : CommandName.ofText? text = none := by
    unfold CommandName.ofText?
    rw [if_neg (hne _ (by decide)), if_neg (hne _ (by decide)), if_neg (hne _ (by decide)),
      if_neg (hne _ (by decide))]
  unfold command?
  rw [hname]
  split <;> rfl

/-! ## Going through arguments -/

/-- The reader takes the arguments one after the other. In front of a command none of them is the
name of one. -/
inductive Consumes : Reading → List String → Reading → Prop
  | nil {r : Reading} : Consumes r [] r
  | cons {r r₁ r₂ : Reading} {text : String} {rest : List String}
      (hname : r.command = none → r.command? text = none) (htoken : r.token text = .ok r₁)
      (hcommand : r₁.command = r.command) (hrest : Consumes r₁ rest r₂) :
      Consumes r (text :: rest) r₂

theorem Consumes.readBehind (h : Consumes r texts r') (config : Option String) :
    readBehind config r (texts ++ rest) = readBehind config r' rest := by
  induction h with
  | nil => rfl
  | cons _ htoken _ _ ih =>
    rw [List.cons_append, CommandLine.readBehind, htoken]
    exact ih

theorem Consumes.readArguments (h : Consumes r texts r') (hfront : r.command = none)
    (config : Option String) :
    readArguments config r (texts ++ rest) = readArguments config r' rest := by
  induction h with
  | nil => rfl
  | cons hname htoken hcommand _ ih =>
    rw [List.cons_append, CommandLine.readArguments, hname hfront, htoken]
    exact ih (hcommand.trans hfront)

/-- The reader is where the items lead, up to a value that it did not look at yet. -/
structure Says (r : Reading) (command : Option CommandName) (items : List Item) : Prop where
  level : r.command = command
  unescaped : r.escaped = false
  flush : r.flush = .ok { command := command, given := said items }

theorem says_said : Says { command, given := said items } command items :=
  ⟨rfl, rfl, rfl⟩

/-- No option waits for its value. -/
theorem Says.pending_ne (h : r.Says command items) : r.pending ≠ some (o, none) := by
  intro hpending
  have hflush := h.flush
  rw [Reading.flush, hpending] at hflush
  cases hflush

/-! ## One more item -/

theorem Says.token_attached (h : r.Says command items)
    {name : String} (hname : o.IsNamed name) (hitem : (Item.option o value).IsAllowed command)
    (honce : ∀ item ∈ items, ¬item.Clashes (.option o value)) :
    r.token (name ++ "=" ++ value) =
      .ok { command, given := said (items ++ [.option o value]) } := by
  rw [Reading.token_attached h.unescaped hname hitem.2.takesValue, Reading.option, h.level,
    hitem.1, h.flush]
  simp [bind, Except.bind, pure, Except.pure, hitem.2.takesValue, set_said hitem.2 honce]

/-- Without a value in the same argument the option waits for the next one. -/
theorem Says.token_apart (h : r.Says command items) {name : String} (hname : o.IsNamed name)
    (hitem : (Item.option o value).IsAllowed command) :
    r.token name = .ok { command, given := said items, pending := some (o, none) } := by
  rw [Reading.token_apart h.unescaped hname, Reading.option, h.level, hitem.1, h.flush]
  simp [bind, Except.bind, pure, Except.pure, hitem.2.takesValue]

/-- The value that came is looked at later. -/
theorem says_pending (hitem : (Item.option o value).IsAllowed command)
    (honce : ∀ item ∈ items, ¬item.Clashes (.option o value)) :
    Says { command, given := said items, pending := some (o, some value) } command
      (items ++ [.option o value]) where
  level := rfl
  unescaped := rfl
  flush := by
    simp [Reading.flush, bind, Except.bind, pure, Except.pure, set_said hitem.2 honce]

theorem Says.token_switch (h : r.Says command items) {name : String} (hname : o.IsNamed name)
    (hitem : (Item.switch o).IsAllowed command)
    (honce : ∀ item ∈ items, ¬item.Clashes (.switch o)) :
    r.token name = .ok { command, given := said (items ++ [.switch o]) } := by
  have hvalue : o.takesValue = false := by
    rcases hitem.2 with rfl | rfl <;> rfl
  rw [Reading.token_apart h.unescaped hname, Reading.option, h.level, hitem.1, h.flush]
  simp [bind, Except.bind, pure, Except.pure, hvalue, switchOn_said hitem.2 honce]

theorem Says.token_invoice (h : r.Says command items) (hplain : IsPlain path)
    (hitem : (Item.invoice path).IsAllowed command)
    (honce : ∀ item ∈ items, ¬item.Clashes (.invoice path)) :
    r.token path = .ok { command, given := said (items ++ [.invoice path]) } := by
  obtain ⟨hnone, hsaid⟩ := said_concat_invoice honce
  obtain ⟨name, rfl⟩ := Option.ne_none_iff_exists'.1 hitem.1
  have hpath : path? path = some path := if_neg hitem.2
  have hplainly : r.plain path = r.positional path := by
    unfold plain
    split
    · rename_i hpending
      exact absurd hpending h.pending_ne
    · rfl
  rw [token_plain h.unescaped hplain, hplainly, positional, h.flush]
  simp [bind, Except.bind, pure, Except.pure, hnone, hpath, hsaid]

end Reading

/-! ## Levels and command lines -/

section Lines

variable {before items front behind : List Item} {item : Item} {texts : List String}
  {command : Option CommandName} {name : CommandName} {path : String} {r : Reading}

theorem IsLevel.next (h : IsLevel command (before ++ item :: items)) :
    item.IsAllowed command ∧ (∀ earlier ∈ before, ¬earlier.Clashes item) ∧
      IsLevel command (before ++ [item] ++ items) := by
  refine ⟨h.allowed item (by simp), fun earlier hearlier => ?_, ?_⟩
  · exact (List.pairwise_append.1 h.once).2.2 earlier hearlier item List.mem_cons_self
  · rw [← List.append_cons]
    exact h

/-- The arguments for items lead from what is said before them to what is said with them. -/
theorem Spells.consumes (h : Spells items texts) (hr : r.Says command before)
    (hlevel : IsLevel command (before ++ items)) :
    ∃ r', Reading.Consumes r texts r' ∧ r'.Says command (before ++ items) := by
  induction h generalizing r before with
  | nil =>
    rw [List.append_nil]
    exact ⟨r, .nil, hr⟩
  | attached hname _ ih =>
    obtain ⟨hitem, honce, hrest⟩ := hlevel.next
    obtain ⟨r', hconsumes, hend⟩ := ih Reading.says_said hrest
    rw [List.append_cons]
    exact ⟨r', .cons (fun _ => Reading.command?_of_dash (by simp [hname.head?]))
      (hr.token_attached hname hitem honce) hr.level.symm hconsumes, hend⟩
  | @apart o _ value _ _ hname hplain _ ih =>
    obtain ⟨hitem, honce, hrest⟩ := hlevel.next
    obtain ⟨r', hconsumes, hend⟩ := ih (Reading.says_pending hitem honce) hrest
    rw [List.append_cons]
    have hvalue : Reading.token { command, given := said before, pending := some (o, none) } value =
        .ok { command, given := said before, pending := some (o, some value) } :=
      Reading.token_plain rfl hplain
    exact ⟨r', .cons (fun _ => Reading.command?_of_dash hname.head?) (hr.token_apart hname hitem)
      hr.level.symm (.cons (fun _ => rfl) hvalue rfl hconsumes), hend⟩
  | switch hname _ ih =>
    obtain ⟨hitem, honce, hrest⟩ := hlevel.next
    obtain ⟨r', hconsumes, hend⟩ := ih Reading.says_said hrest
    rw [List.append_cons]
    exact ⟨r', .cons (fun _ => Reading.command?_of_dash hname.head?)
      (hr.token_switch hname hitem honce) hr.level.symm hconsumes, hend⟩
  | invoice hplain _ ih =>
    obtain ⟨hitem, honce, hrest⟩ := hlevel.next
    obtain ⟨r', hconsumes, hend⟩ := ih Reading.says_said hrest
    rw [List.append_cons]
    exact ⟨r', .cons (fun hnone => absurd (hr.level.symm.trans hnone) hitem.1)
      (hr.token_invoice hplain hitem honce) hr.level.symm hconsumes, hend⟩

/-- All arguments of a level together. -/
theorem Spells.leads (h : Spells items texts) (hlevel : IsLevel command items) :
    ∃ r, Reading.Consumes { command } texts r ∧ r.Says command items := by
  have hlevel' : IsLevel command ([] ++ items) := hlevel
  exact h.consumes Reading.says_said hlevel'

/-- At the end the items of a level are what is said. -/
theorem Reading.Says.finish (h : r.Says command items) {config : Option String}
    (hconfig : config ≠ some "") : r.finish config = .ok (said items) := by
  rw [Reading.finish, h.flush]
  simp [bind, Except.bind, pure, Except.pure, hconfig]

/-- The path of the invoice is said. -/
theorem IsLevel.said_invoice (h : IsLevel command items) (hpath : .invoice path ∈ items) :
    (said items).invoice = some path := by
  have honly : (invoicesOf items).Pairwise fun _ _ => False := by
    refine h.once.filterMap _ fun a a' hclash b hb b' hb' => ?_
    cases a with
    | invoice _ =>
      cases a' with
      | invoice _ => exact hclash trivial
      | option _ _ => cases hb'
      | switch _ => cases hb'
    | option _ _ => cases hb
    | switch _ => cases hb
  have hmem := mem_invoicesOf.2 hpath
  show (invoicesOf items).head? = some path
  match invoicesOf items, honly, hmem with
  | [_], _, hmem => rw [List.mem_singleton.1 hmem, List.head?_cons]
  | _ :: _ :: _, honly, _ => exact (List.rel_of_pairwise_cons honly List.mem_cons_self).elim

/-- The arguments are items in front of the name of a command, the name, and items behind it, with
the path of the invoice among them. -/
structure IsLine (arguments : List String) (name : CommandName) (front behind : List Item)
    (path : String) : Prop where
  spelled : ∃ texts texts', arguments = texts ++ name.toText :: texts' ∧ Spells front texts ∧
    Spells behind texts'
  inFront : IsLevel none front
  behindName : IsLevel (some name) behind
  named : .invoice path ∈ behind

/-- What a command line asks for is what its items say. -/
theorem Invocation.parse_eq_ok {arguments : List String} {config : Option String}
    (h : IsLine arguments name front behind path) (hconfig : config ≠ some "") :
    Invocation.parse config arguments = .ok {
      command := commandOf name (said behind)
      invoice := path
      format := (said behind).format.or (said front).format
      verbose := (said behind).verbose || (said front).verbose
      config := (said behind).config.or ((said front).config.or config) } := by
  obtain ⟨texts, texts', rfl, hfront, hbehind⟩ := h.spelled
  obtain ⟨r, hconsumes, hend⟩ := hfront.leads h.inFront
  obtain ⟨r', hconsumes', hend'⟩ := hbehind.leads h.behindName
  have hname : r.command? name.toText = some name := by
    unfold Reading.command?
    rw [hend.unescaped, CommandName.ofText?_toText]
    split
    · rename_i hescaped
      cases hescaped
    · rename_i hpending
      exact absurd hpending hend.pending_ne
    · rfl
  have hread : readBehind config { command := some name } texts' = .ok (said behind) := by
    rw [← List.append_nil texts']
    exact (hconsumes'.readBehind config).trans (hend'.finish hconfig)
  have hlevels : readArguments config { command := none } (texts ++ name.toText :: texts') =
      .ok (said front, name, said behind) := by
    refine (hconsumes.readArguments rfl config).trans ?_
    rw [readArguments, hname]
    simp only [hread, hend.finish hconfig]
    rfl
  rw [parse, hlevels]
  simp only [bind, Except.bind, h.behindName.said_invoice h.named]
  rfl

end Lines

end Bindle.CommandLine
