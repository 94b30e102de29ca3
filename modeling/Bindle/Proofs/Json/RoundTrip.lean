import Bindle.Json.Printer
import Bindle.Json.Reader
import Mathlib.Data.List.TakeWhile

/-!
# Reading what was written

A written value is read back as the value itself, with whatever stands behind it left over. A text
ends at the first quotation mark that is not escaped, a number at the first character that cannot
belong to it, and arrays and objects at the bracket that closes them, so no reader takes more than
was written. Numbers that are kept as their text are set aside: what is printed here has none. The
steps that the reader is allowed are twice the characters, and each bracket or comma uses up two.

No control character is ever written, so a written value is on one line.

* `IsIntegral`: all numbers of a value are integers.
* `readText_flatMap_writeChar`, `readNumber_toDigits`: texts and numbers are read back.
* `ReadsBack`: so is a value; `IsIntegral.readsBack`.
* `IsIntegral.parse?_toText`: a text with nothing but a written value in it.
* `IsIntegral.hasNoControl`, `IsIntegral.newline_not_mem`: what is written is on one line.
-/

namespace Bindle.Json

variable {c : Char} {cs more rest : List Char} {fuel : Nat}

/-- All numbers in the value are integers. -/
inductive IsIntegral : Json → Prop where
  | null : IsIntegral .null
  | bool (b : Bool) : IsIntegral (.bool b)
  | int (n : Int) : IsIntegral (.int n)
  | string (s : String) : IsIntegral (.string s)
  | array {items : List Json} (h : ∀ item ∈ items, IsIntegral item) : IsIntegral (.array items)
  | object {members : List (String × Json)} (h : ∀ m ∈ members, IsIntegral m.2) :
    IsIntegral (.object members)

attribute [simp] IsIntegral.null IsIntegral.bool IsIntegral.int IsIntegral.string

@[simp]
theorem isIntegral_array {items : List Json} :
    (Json.array items).IsIntegral ↔ ∀ item ∈ items, item.IsIntegral := by
  constructor
  · rintro ⟨⟩
    assumption
  · exact .array

@[simp]
theorem isIntegral_object {members : List (String × Json)} :
    (Json.object members).IsIntegral ↔ ∀ m ∈ members, m.2.IsIntegral := by
  constructor
  · rintro ⟨⟩
    assumption
  · exact .object

@[simp]
theorem isIntegral_nat (n : Nat) : (Json.nat n).IsIntegral := .int _

@[simp]
theorem isIntegral_strings (texts : List String) : (Json.strings texts).IsIntegral := by
  simp [strings]

/-! ## Texts -/

theorem hexValue?_digitChar : ∀ d < 16, hexValue? (Nat.digitChar d) = some d := by
  decide

theorem readEscape_hex (h : c.toNat < 0x20) :
    readEscape ('u' :: '0' :: '0' :: Nat.digitChar (c.toNat / 16) ::
      Nat.digitChar (c.toNat % 16) :: cs) = some (c, cs) := by
  have hzero : hexValue? '0' = some 0 := by decide
  have hhigh := hexValue?_digitChar (c.toNat / 16) (by omega)
  have hlow := hexValue?_digitChar (c.toNat % 16) (by omega)
  have hvalue : hex4? '0' '0' (Nat.digitChar (c.toNat / 16)) (Nat.digitChar (c.toNat % 16)) =
      some c.toNat := by
    simp only [hex4?, hzero, hhigh, hlow, Option.bind_eq_bind, Option.bind_some, pure]
    congr 1
    omega
  have hsurrogate : isHighSurrogate c.toNat = false ∧ isLowSurrogate c.toNat = false := by
    simp only [isHighSurrogate, isLowSurrogate, Bool.and_eq_false_iff, decide_eq_false_iff_not]
    omega
  simp [readEscape, hvalue, hsurrogate]

theorem readText_backslash {more : List Char} (h : readEscape more = some (c, cs)) :
    readText (fuel + 1) ('\\' :: more) = (readText fuel cs).map fun r => (c :: r.1, r.2) := by
  cases hmore : readText fuel cs with
  | none => simp [readText, h, hmore]
  | some r => simp [readText, h, hmore]

theorem readText_plain (hquote : c ≠ '"') (hbackslash : c ≠ '\\') (hc : ¬c.toNat < 0x20) :
    readText (fuel + 1) (c :: cs) = (readText fuel cs).map fun r => (c :: r.1, r.2) := by
  cases hmore : readText fuel cs with
  | none => simp [readText, hc, hmore]
  | some r => simp [readText, hc, hmore]

/-- A character of a written text is read in one step. -/
theorem readText_writeChar (fuel : Nat) (c : Char) (cs : List Char) :
    readText (fuel + 1) (writeChar c ++ cs) =
      (readText fuel cs).map fun r => (c :: r.1, r.2) := by
  unfold writeChar
  split_ifs with hquote hbackslash hnewline hreturn htab hbackspace hformFeed hcontrol
  · subst hquote
    exact readText_backslash rfl
  · subst hbackslash
    exact readText_backslash rfl
  · subst hnewline
    exact readText_backslash rfl
  · subst hreturn
    exact readText_backslash rfl
  · subst htab
    exact readText_backslash rfl
  · subst hbackspace
    exact readText_backslash rfl
  · subst hformFeed
    exact readText_backslash rfl
  · exact readText_backslash (readEscape_hex hcontrol)
  · exact readText_plain hquote hbackslash hcontrol

/-- The characters of a written text are read up to the quotation mark behind them. -/
theorem readText_flatMap_writeChar (text rest : List Char) (h : text.length < fuel) :
    readText fuel (text.flatMap writeChar ++ '"' :: rest) = some (text, rest) := by
  induction text generalizing fuel with
  | nil =>
    obtain ⟨more, rfl⟩ : ∃ more, fuel = more + 1 := ⟨fuel - 1, by omega⟩
    rfl
  | cons c text ih =>
    obtain ⟨more, rfl⟩ : ∃ more, fuel = more + 1 := ⟨fuel - 1, by omega⟩
    rw [List.flatMap_cons, List.append_assoc, readText_writeChar, ih (by simpa using h)]
    rfl

theorem writeChar_ne_nil (c : Char) : writeChar c ≠ [] := by
  unfold writeChar
  split_ifs <;> simp

theorem length_le_length_flatMap_writeChar (text : List Char) :
    text.length ≤ (text.flatMap writeChar).length := by
  induction text with
  | nil => simp
  | cons c text ih =>
    have hpos := List.length_pos_iff.2 (writeChar_ne_nil c)
    simp only [List.flatMap_cons, List.length_append, List.length_cons]
    omega

/-- The reader of texts is allowed as many steps as there are characters. -/
theorem readText_writeText (s : String) (rest : List Char) :
    let cs := s.toList.flatMap writeChar ++ '"' :: rest
    readText (cs.length + 1) cs = some (s.toList, rest) := by
  have hlength := length_le_length_flatMap_writeChar s.toList
  refine readText_flatMap_writeChar _ _ ?_
  simp only [List.length_append, List.length_cons]
  omega

/-! ## Numbers -/

/-- Behind a number, these characters do not continue it. -/
def EndsNumber (rest : List Char) : Prop :=
  ∀ c more, rest = c :: more → c.isDigit = false ∧ c ≠ '.' ∧ c ≠ 'e' ∧ c ≠ 'E'

theorem endsNumber_nil : EndsNumber [] := by
  intro c more h
  cases h

/-- The characters that stand behind a value in an array or an object end a number. -/
theorem endsNumber_cons (h : c = ',' ∨ c = ']' ∨ c = '\x7d') : EndsNumber (c :: cs) := by
  rintro _ _ ⟨⟩
  rcases h with rfl | rfl | rfl <;> decide

/-- The first digit of a number. -/
theorem exists_toDigits_eq_cons (n : Nat) :
    ∃ c cs, Nat.toDigits 10 n = c :: cs ∧ c.isDigit = true := by
  obtain ⟨c, cs, hdigits⟩ := List.exists_cons_of_ne_nil (Nat.toDigits_ne_nil (n := n) (b := 10))
  exact ⟨c, cs, hdigits, Nat.isDigit_of_mem_toDigits (by decide) (by decide)
    (hdigits ▸ List.mem_cons_self)⟩

/-- A number of several digits does not begin with a zero. -/
theorem toDigits_ne_zero_cons (n : Nat) (d : Char) (more : List Char) :
    Nat.toDigits 10 n ≠ '0' :: d :: more := by
  induction n using Nat.strongRecOn generalizing d more with
  | _ n ih =>
    intro h
    by_cases hlt : n < 10
    · rw [Nat.toDigits_of_lt_base hlt] at h
      exact absurd (List.cons.inj h).2 (List.cons_ne_nil d more).symm
    · rw [Nat.toDigits_of_base_le (by decide) (by omega)] at h
      obtain ⟨c, front, hfront, -⟩ := exists_toDigits_eq_cons (n / 10)
      rw [hfront, List.cons_append] at h
      obtain ⟨rfl, -⟩ := List.cons.inj h
      cases front with
      | nil =>
        -- a zero alone in front would be the tenth part of the number
        have hvalue := Nat.ofDigitChars_ten_toDigits (n := n / 10)
        rw [hfront] at hvalue
        have hzero : Nat.ofDigitChars 10 ['0'] 0 = 0 := by decide
        omega
      | cons e front => exact ih (n / 10) (by omega) e front hfront

theorem readDigits_toDigits (n : Nat) (hrest : EndsNumber rest) :
    readDigits (Nat.toDigits 10 n ++ rest) = (Nat.toDigits 10 n, rest) := by
  have hdigits : ∀ c ∈ Nat.toDigits 10 n, c.isDigit = true :=
    fun c hc => Nat.isDigit_of_mem_toDigits (by decide) (by decide) hc
  rw [readDigits, List.takeWhile_append_of_pos hdigits, List.dropWhile_append_of_pos hdigits]
  cases rest with
  | nil => simp
  | cons c more => simp [(hrest c more rfl).1]

theorem readFraction_of_endsNumber (hrest : EndsNumber rest) :
    readFraction rest = some ([], rest) := by
  cases rest with
  | nil => rfl
  | cons c more => simp [readFraction, (hrest c more rfl).2.1]

theorem readExponent_of_endsNumber (hrest : EndsNumber rest) :
    readExponent rest = some ([], rest) := by
  cases rest with
  | nil => rfl
  | cons c more => simp [readExponent, (hrest c more rfl).2.2]

/-- The digits of a number are read as the number with its sign; there is no negative zero. -/
theorem readNumber_toDigits (negative : Bool) (n : Nat) (hn : negative = true → n ≠ 0)
    (hrest : EndsNumber rest) :
    readNumber negative (Nat.toDigits 10 n ++ rest) =
      some (.int (if negative then -n else n), rest) := by
  obtain ⟨c, more, hdigits, -⟩ := exists_toDigits_eq_cons n
  have hzero : ¬(c = '0' ∧ more ≠ []) := by
    rintro ⟨rfl, hmore⟩
    obtain ⟨d, more, rfl⟩ := List.exists_cons_of_ne_nil hmore
    exact toDigits_ne_zero_cons n d more hdigits
  have hvalue : Nat.ofDigitChars 10 (c :: more) 0 = n := by
    rw [← hdigits, Nat.ofDigitChars_ten_toDigits]
  unfold readNumber
  rw [readDigits_toDigits n hrest, hdigits]
  dsimp only
  rw [if_neg hzero, readFraction_of_endsNumber hrest]
  simpa [readExponent_of_endsNumber hrest, hvalue] using hn

/-! ## Values -/

/-- A value that is written is read back, with whatever stands behind it left over. -/
def ReadsBack (j : Json) : Prop :=
  ∀ fuel rest, 2 * j.toChars.length ≤ fuel → EndsNumber rest →
    readValue fuel (j.toChars ++ rest) = some (j, rest)

theorem skipSpace_cons (h : isSpace c = false) : skipSpace (c :: cs) = c :: cs :=
  List.dropWhile_cons_of_neg (by simp [h])

theorem isSpace_of_isDigit (h : c.isDigit = true) : isSpace c = false := by
  simp only [isSpace, Bool.or_eq_false_iff, beq_eq_false_iff_ne]
  refine ⟨⟨⟨?_, ?_⟩, ?_⟩, ?_⟩ <;>
  · rintro rfl
    exact absurd h (by decide)

/-- What begins with a digit is a number. -/
theorem readValue_of_isDigit (h : c.isDigit = true) :
    readValue (fuel + 1) (c :: cs) = readNumber false (c :: cs) := by
  rw [readValue, skipSpace_cons (isSpace_of_isDigit h)]
  split
  all_goals first
    | rfl
    | rename_i heq
      obtain ⟨rfl, -⟩ := List.cons.inj heq
      exact absurd h (by decide)

/-- The first character of a written value is neither white space nor a closing bracket. -/
theorem IsIntegral.exists_cons {j : Json} (h : j.IsIntegral) :
    ∃ c cs, j.toChars = c :: cs ∧ isSpace c = false ∧ c ≠ ']' := by
  cases h with
  | null => exact ⟨'n', _, by rw [toChars], by decide, by decide⟩
  | bool b =>
    cases b with
    | false => exact ⟨'f', _, by rw [toChars], by decide, by decide⟩
    | true => exact ⟨'t', _, by rw [toChars], by decide, by decide⟩
  | int n =>
    cases n with
    | ofNat n =>
      obtain ⟨c, more, hdigits, hc⟩ := exists_toDigits_eq_cons n
      refine ⟨c, more, ?_, isSpace_of_isDigit hc, ?_⟩
      · rw [toChars]
        exact hdigits
      · rintro rfl
        exact absurd hc (by decide)
    | negSucc n => exact ⟨'-', _, by rw [toChars]; rfl, by decide, by decide⟩
  | string s => exact ⟨'"', _, by rw [toChars]; rfl, by decide, by decide⟩
  | @array items =>
    cases items with
    | nil => exact ⟨'[', _, by rw [toChars], by decide, by decide⟩
    | cons item items => exact ⟨'[', _, by rw [toChars], by decide, by decide⟩
  | @object members =>
    cases members with
    | nil => exact ⟨'\x7b', _, by rw [toChars], by decide, by decide⟩
    | cons m members => exact ⟨'\x7b', _, by rw [toChars], by decide, by decide⟩

/-- Something is written of every value, so the reader has a step to begin with. -/
theorem IsIntegral.readsBack_of_succ {j : Json} (hj : j.IsIntegral)
    (h : ∀ fuel rest, 2 * j.toChars.length ≤ fuel + 1 → EndsNumber rest →
      readValue (fuel + 1) (j.toChars ++ rest) = some (j, rest)) : j.ReadsBack := by
  intro fuel rest hfuel hrest
  obtain ⟨c, cs, hchars, -⟩ := hj.exists_cons
  have hpos : 0 < fuel := by
    rw [hchars, List.length_cons] at hfuel
    omega
  obtain ⟨fuel, rfl⟩ := Nat.exists_eq_succ_of_ne_zero hpos.ne'
  exact h fuel rest hfuel hrest

/-! ## Arrays and objects -/

/-- The items of an array are read one after the other, up to the closing bracket. -/
theorem readItems_toChars (fuel : Nat) (item : Json) {items : List Json}
    (h : ∀ j ∈ item :: items, j.ReadsBack) (rest : List Char)
    (hfuel : 2 * (item.toChars ++ itemsToChars items).length < fuel) :
    readItems fuel (item.toChars ++ itemsToChars items ++ ']' :: rest) =
      some (item :: items, rest) := by
  induction items generalizing fuel item with
  | nil =>
    obtain ⟨fuel, rfl⟩ := Nat.exists_eq_succ_of_ne_zero (Nat.ne_zero_of_lt hfuel)
    simp only [itemsToChars, List.append_nil] at hfuel
    have hitem := h item List.mem_cons_self fuel (']' :: rest) (by omega)
      (endsNumber_cons (by simp))
    simp (disch := decide) [readItems, itemsToChars, hitem, skipSpace_cons]
  | cons next items ih =>
    obtain ⟨fuel, rfl⟩ := Nat.exists_eq_succ_of_ne_zero (Nat.ne_zero_of_lt hfuel)
    simp only [itemsToChars, List.length_append, List.length_cons] at hfuel
    have hitem := h item List.mem_cons_self fuel
      (',' :: (next.toChars ++ itemsToChars items ++ ']' :: rest)) (by omega)
      (endsNumber_cons (by simp))
    have hitems := ih fuel next (fun j hj => h j (List.mem_cons_of_mem _ hj))
      (by simp only [List.length_append]; omega)
    simp only [List.append_assoc] at hitem hitems
    simp (disch := decide) [readItems, itemsToChars, hitem, hitems, skipSpace_cons]

section Members

variable {key : String} {value : Json} {members : List (String × Json)}

/-- The last member of an object: a key and a colon, a value, and the closing brace. -/
theorem readMembers_last (h : readValue fuel cs = some (value, '\x7d' :: rest)) :
    readMembers (fuel + 1) (writeText key ++ ':' :: cs) = some ([(key, value)], rest) := by
  have hkey := readText_writeText key (':' :: cs)
  simp only [List.length_append, List.length_cons] at hkey
  simp (disch := decide) [readMembers, writeText, skipSpace_cons, hkey, h, -List.length_flatMap]

/-- Any other member: a key and a colon, a value, and a comma in front of the rest. -/
theorem readMembers_cons (h : readValue fuel cs = some (value, ',' :: more))
    (hmembers : readMembers fuel more = some (members, rest)) :
    readMembers (fuel + 1) (writeText key ++ ':' :: cs) =
      some ((key, value) :: members, rest) := by
  have hkey := readText_writeText key (':' :: cs)
  simp only [List.length_append, List.length_cons] at hkey
  simp (disch := decide) [readMembers, writeText, skipSpace_cons, hkey, h, hmembers,
    -List.length_flatMap]

end Members

/-- The members of an object are read one after the other, up to the closing brace. -/
theorem readMembers_toChars (fuel : Nat) (key : String) (value : Json)
    {members : List (String × Json)} (h : ∀ m ∈ (key, value) :: members, m.2.ReadsBack)
    (rest : List Char) (hfuel : 2 * (value.toChars ++ membersToChars members).length < fuel) :
    readMembers fuel
        (writeText key ++ ':' :: (value.toChars ++ membersToChars members ++ '\x7d' :: rest)) =
      some ((key, value) :: members, rest) := by
  have hread : value.ReadsBack := h _ List.mem_cons_self
  induction members generalizing fuel key value with
  | nil =>
    obtain ⟨fuel, rfl⟩ := Nat.exists_eq_succ_of_ne_zero (Nat.ne_zero_of_lt hfuel)
    simp only [membersToChars, List.append_nil] at hfuel
    have hvalue := hread fuel ('\x7d' :: rest) (by omega) (endsNumber_cons (by simp))
    simpa [membersToChars] using readMembers_last hvalue
  | cons next members ih =>
    obtain ⟨fuel, rfl⟩ := Nat.exists_eq_succ_of_ne_zero (Nat.ne_zero_of_lt hfuel)
    simp only [membersToChars, List.length_append, List.length_cons] at hfuel
    have hvalue := hread fuel
      (',' :: (writeText next.1 ++ ':' ::
        (next.2.toChars ++ membersToChars members ++ '\x7d' :: rest))) (by omega)
      (endsNumber_cons (by simp))
    have hmembers := ih fuel next.1 next.2 (fun m hm => h m (List.mem_cons_of_mem _ hm))
      (by simp only [List.length_append]; omega) (h next (by simp))
    simpa [membersToChars] using readMembers_cons hvalue hmembers

/-! ## All values -/

theorem readsBack_int (n : Int) : (Json.int n).ReadsBack := by
  refine (IsIntegral.int n).readsBack_of_succ fun fuel rest _ hrest => ?_
  rw [toChars]
  cases n with
  | ofNat n =>
    obtain ⟨c, more, hdigits, hc⟩ := exists_toDigits_eq_cons n
    have hread := readNumber_toDigits false n (by simp) hrest
    rw [hdigits] at hread
    rw [writeInt, hdigits, List.cons_append, readValue_of_isDigit hc]
    exact hread
  | negSucc n =>
    rw [writeInt, List.cons_append, readValue, skipSpace_cons (by decide)]
    exact readNumber_toDigits true (n + 1) (by simp) hrest

theorem readsBack_string (s : String) : (Json.string s).ReadsBack := by
  refine (IsIntegral.string s).readsBack_of_succ fun fuel rest _ _ => ?_
  have hread := readText_writeText s rest
  simp only [List.length_append, List.length_cons] at hread
  rw [toChars]
  simp (disch := decide) [readValue, writeText, skipSpace_cons, hread, -List.length_flatMap]

theorem readsBack_array {items : List Json} (hitems : ∀ item ∈ items, item.IsIntegral)
    (h : ∀ item ∈ items, item.ReadsBack) : (Json.array items).ReadsBack := by
  refine (IsIntegral.array hitems).readsBack_of_succ fun fuel rest hfuel _ => ?_
  cases items with
  | nil =>
    rw [toChars]
    simp (disch := decide) [readValue, skipSpace_cons]
  | cons item items =>
    rw [toChars] at hfuel ⊢
    simp only [List.length_append, List.length_cons] at hfuel
    have hread := readItems_toChars fuel item h rest (by simp only [List.length_append]; omega)
    obtain ⟨c, cs, hitem, hspace, hclose⟩ := (hitems item List.mem_cons_self).exists_cons
    simp only [hitem, List.append_assoc, List.cons_append, List.nil_append] at hread ⊢
    rw [readValue, skipSpace_cons (by decide)]
    simp only [skipSpace_cons hspace]
    -- an array that begins with a closing bracket would be empty
    split
    · rename_i heq
      exact absurd (List.cons.inj heq).1 hclose
    · simp [hread]

theorem readsBack_object {members : List (String × Json)}
    (hmembers : ∀ m ∈ members, m.2.IsIntegral) (h : ∀ m ∈ members, m.2.ReadsBack) :
    (Json.object members).ReadsBack := by
  refine (IsIntegral.object hmembers).readsBack_of_succ fun fuel rest hfuel _ => ?_
  cases members with
  | nil =>
    rw [toChars]
    simp (disch := decide) [readValue, skipSpace_cons]
  | cons m members =>
    obtain ⟨key, value⟩ := m
    rw [toChars] at hfuel ⊢
    simp only [List.length_append, List.length_cons] at hfuel
    have hread := readMembers_toChars fuel key value h rest
      (by simp only [List.length_append]; omega)
    simp only [writeText, List.append_assoc, List.cons_append, List.nil_append] at hread ⊢
    rw [readValue, skipSpace_cons (by decide)]
    simp (disch := decide) only [skipSpace_cons]
    simp [hread]

/-- Every value without fractions is read back. -/
theorem IsIntegral.readsBack {j : Json} (h : j.IsIntegral) : j.ReadsBack := by
  induction h with
  | null =>
    refine IsIntegral.null.readsBack_of_succ fun fuel rest _ _ => ?_
    rw [toChars]
    rfl
  | bool b =>
    refine (IsIntegral.bool b).readsBack_of_succ fun fuel rest _ _ => ?_
    cases b with
    | false =>
      rw [toChars]
      rfl
    | true =>
      rw [toChars]
      rfl
  | int n => exact readsBack_int n
  | string s => exact readsBack_string s
  | array h ih => exact readsBack_array h ih
  | object h ih => exact readsBack_object h ih

/-- A text that holds a written value and nothing else is read as the value. -/
theorem IsIntegral.parse?_toText {j : Json} (h : j.IsIntegral) : parse? j.toText = some j := by
  have hread := h.readsBack (2 * j.toChars.length + 1) [] (by omega) endsNumber_nil
  rw [List.append_nil] at hread
  simp [parse?, toText, hread, skipSpace]

/-! ## One line -/

/-- No control character is among these. -/
def HasNoControl (cs : List Char) : Prop :=
  ∀ c ∈ cs, 0x20 ≤ c.toNat

@[simp]
theorem hasNoControl_nil : HasNoControl [] := by
  intro c hc
  cases hc

@[simp]
theorem hasNoControl_cons : HasNoControl (c :: cs) ↔ 0x20 ≤ c.toNat ∧ HasNoControl cs := by
  simp [HasNoControl]

@[simp]
theorem hasNoControl_append {cs ds : List Char} :
    HasNoControl (cs ++ ds) ↔ HasNoControl cs ∧ HasNoControl ds := by
  simp [HasNoControl, or_imp, forall_and]

theorem hasNoControl_toDigits (n : Nat) : HasNoControl (Nat.toDigits 10 n) := by
  intro c hc
  have hdigit := Nat.isDigit_of_mem_toDigits (by decide) (by decide) hc
  simp only [Char.isDigit, Bool.and_eq_true, decide_eq_true_eq] at hdigit
  have hle : (48 : UInt32).toNat ≤ c.val.toNat := hdigit.1
  exact le_trans (by decide) hle

theorem hasNoControl_digitChar : ∀ d < 16, 0x20 ≤ (Nat.digitChar d).toNat := by
  decide

theorem hasNoControl_writeChar (c : Char) : HasNoControl (writeChar c) := by
  have hhigh : c.toNat < 0x20 → 0x20 ≤ (Nat.digitChar (c.toNat / 16)).toNat :=
    fun h => hasNoControl_digitChar _ (by omega)
  have hlow := hasNoControl_digitChar (c.toNat % 16) (by omega)
  unfold writeChar
  split_ifs with _ _ _ _ _ _ _ hcontrol <;> simp
  · exact ⟨hhigh hcontrol, hlow⟩
  · exact Nat.not_lt.1 hcontrol

theorem hasNoControl_writeText (s : String) : HasNoControl (writeText s) := by
  have htext : HasNoControl (s.toList.flatMap writeChar) := by
    intro c hc
    obtain ⟨d, -, hd⟩ := List.mem_flatMap.1 hc
    exact hasNoControl_writeChar d c hd
  simp [writeText, htext]

theorem hasNoControl_itemsToChars {items : List Json} (h : ∀ j ∈ items, HasNoControl j.toChars) :
    HasNoControl (itemsToChars items) := by
  induction items with
  | nil => exact hasNoControl_nil
  | cons item items ih =>
    have hitems := ih fun j hj => h j (List.mem_cons_of_mem _ hj)
    simp [itemsToChars, h item List.mem_cons_self, hitems]

theorem hasNoControl_membersToChars {members : List (String × Json)}
    (h : ∀ m ∈ members, HasNoControl m.2.toChars) : HasNoControl (membersToChars members) := by
  induction members with
  | nil => exact hasNoControl_nil
  | cons m members ih =>
    have hmembers := ih fun m hm => h m (List.mem_cons_of_mem _ hm)
    simp [membersToChars, hasNoControl_writeText, h m List.mem_cons_self, hmembers]

theorem IsIntegral.hasNoControl {j : Json} (h : j.IsIntegral) : HasNoControl j.toChars := by
  induction h with
  | null => simp [toChars]
  | bool b => cases b <;> simp [toChars]
  | int n =>
    rw [toChars]
    cases n with
    | ofNat n => exact hasNoControl_toDigits n
    | negSucc n => exact hasNoControl_cons.2 ⟨by decide, hasNoControl_toDigits (n + 1)⟩
  | string s => simpa [toChars] using hasNoControl_writeText s
  | @array items _ ih =>
    cases items with
    | nil => simp [toChars]
    | cons item items =>
      have hitems := hasNoControl_itemsToChars fun j hj => ih j (List.mem_cons_of_mem _ hj)
      simp [toChars, ih item List.mem_cons_self, hitems]
  | @object members _ ih =>
    cases members with
    | nil => simp [toChars]
    | cons m members =>
      have hmembers := hasNoControl_membersToChars fun m hm => ih m (List.mem_cons_of_mem _ hm)
      simp [toChars, hasNoControl_writeText, ih m List.mem_cons_self, hmembers]

/-- A written value has no line break in it. -/
theorem IsIntegral.newline_not_mem {j : Json} (h : j.IsIntegral) : '\n' ∉ j.toText.toList := by
  intro hc
  rw [toText, String.toList_ofList] at hc
  exact absurd (h.hasNoControl _ hc) (by decide)

end Bindle.Json
