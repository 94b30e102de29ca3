import Bindle.Proofs.Invoice.Validity
import Bindle.Proofs.Version.Commas

/-!
# Pins

A range that begins with a digit gets an equals sign in front, so a full version pins the invoice
to its three numbers and its pre-release: the text is read as one comparator, whose identifiers are
those of the version. The build is read and dropped.

Only the first comparator of a range is looked at. A bare version behind a comma is a caret, as it
is in any other requirement, so exchanging two comparators keeps the range if the equals sign of
the pin is written out.

* `Comparator.exactly`: what a full version pins down; `accepts_exactly_iff`.
* `Invoice.versionInRange_full`: which invoices are in the range of a full version.
* `Requirement.pair?`, `Version.inRange_pair`: ranges of two comparators.
* `Invoice.versionInRange_swap`: exchanging two comparators.
-/

namespace Bindle

/-- The comparator that only the version itself matches, whatever its build. -/
def Comparator.exactly (w : Version) : Comparator :=
  ⟨.exact, w.major, some w.minor, some w.patch, w.preRelease⟩

/-! ## Full versions -/

namespace Requirement

open Version (readNumber parseChars)

variable {part : VersionPart} {cs rest : List Char} {c : Char} {n : Nat} {w : Version}

theorem wildcard?_of_isDigit (hc : c.isDigit = true) : wildcard? (c :: cs) = none := by
  unfold wildcard?
  split
  · rename_i heq
    cases heq
    cases hc
  · rename_i heq
    cases heq
    cases hc
  · rename_i heq
    cases heq
    cases hc
  · rfl

theorem skipSpaces_nil : skipSpaces [] = [] := rfl

theorem skipSpaces_of_isDigit (hc : c.isDigit = true) : skipSpaces (c :: cs) = c :: cs := by
  refine List.dropWhile_cons_of_neg fun hspace => ?_
  rw [beq_iff_eq.1 hspace] at hc
  cases hc

theorem readSlot?_of_readNumber (h : readNumber part cs = .ok (n, rest)) :
    readSlot? part ('.' :: cs) = some (.number n, rest) := by
  obtain ⟨c, more, rfl, hc⟩ := Version.exists_digit_of_readNumber h
  simp [readSlot?, wildcard?_of_isDigit hc, h]

/-- A version with an equals sign in front is read as one comparator. -/
theorem readComparator?_of_parseChars (h : parseChars cs = .ok w) :
    readComparator? ('=' :: cs) = some (.exactly w, []) := by
  obtain ⟨afterMajor, afterMinor, afterPatch, afterPreRelease, hmajor, hminor, hpatch,
    hpreRelease, hbuild⟩ := Version.parseChars_eq_ok h
  have hskip : skipSpaces cs = cs := by
    obtain ⟨c, more, rfl, hc⟩ := Version.exists_digit_of_readNumber hmajor
    exact skipSpaces_of_isDigit hc
  unfold readComparator?
  simp [readOperator, hskip, hmajor, readSlot?_of_readNumber hminor, readSlot?_of_readNumber hpatch,
    hpreRelease, hbuild, Slot.number?, Except.toOption, Comparator.exactly, skipSpaces_nil]

theorem parseChars?_of_parseChars (h : parseChars cs = .ok w) :
    parseChars? ('=' :: cs) = some ⟨[.exactly w]⟩ := by
  have hskip : skipSpaces ('=' :: cs) = '=' :: cs := rfl
  have hcomparator := readComparator?_of_parseChars h
  simp [parseChars?, hskip, wildcard?, readComparators?, hcomparator]

end Requirement

/-- A version matches exactly when it differs in the build at most. -/
theorem accepts_exactly_iff {v w : Version} :
    (⟨[.exactly w]⟩ : Requirement).accepts v = true ↔
      v.major = w.major ∧ v.minor = w.minor ∧ v.patch = w.patch ∧ v.preRelease = w.preRelease := by
  simp only [Requirement.accepts, Comparator.accepts, Comparator.exactly, Comparator.matchesExact,
    Comparator.allowsPreRelease]
  constructor
  · intro h
    simp at h
    obtain ⟨⟨⟨⟨hmajor, hminor⟩, hpatch⟩, hpreRelease⟩, -⟩ := h
    exact ⟨hmajor, hminor.symm, hpatch.symm, hpreRelease⟩
  · rintro ⟨hmajor, hminor, hpatch, hpreRelease⟩
    simp [hmajor, hminor, hpatch, hpreRelease]

theorem Requirement.pinned_of_parseChars {cs : List Char} {w : Version}
    (h : Version.parseChars cs = .ok w) : ∃ c rest, cs = c :: rest ∧ pinned cs = '=' :: cs := by
  obtain ⟨_, _, _, _, hmajor, -⟩ := Version.parseChars_eq_ok h
  obtain ⟨c, rest, rfl, hc⟩ := Version.exists_digit_of_readNumber hmajor
  exact ⟨c, rest, rfl, if_pos hc⟩

theorem Version.inRange_full_iff {v w : Version} {text : String}
    (h : Version.parse (Text.trim text) = .ok w) :
    v.inRange text = true ↔
      v.major = w.major ∧ v.minor = w.minor ∧ v.patch = w.patch ∧ v.preRelease = w.preRelease := by
  rw [Version.parse, Text.toList_trim] at h
  obtain ⟨c, rest, hcons, hpinned⟩ := Requirement.pinned_of_parseChars h
  rw [← accepts_exactly_iff, Version.inRange]
  split
  · rename_i hnil
    rw [hnil] at hcons
    cases hcons
  · rw [hpinned, Requirement.parseChars?_of_parseChars h]

namespace Invoice

variable {i : Invoice}

/-- The text of a valid invoice's version is read as that version. -/
theorem IsValid.parse_version (h : i.IsValid) :
    Version.parse (Text.trim i.bindle.version.toText) = .ok i.bindle.version := by
  obtain ⟨draft, hdraft⟩ := h
  have hread := (ofDraft_eq_ok_iff.1 hdraft).2.1.bindle.version
  rwa [Version.toText_of_parse hread, Text.trim_trim]

/-- **A full version is an exact pin.** An invoice is in the range of a version that is written in
full, with blanks around it or without, if the two agree in everything but the build. So every
invoice is in the range of its own version. -/
theorem versionInRange_full (h : i.IsValid) :
    (∀ text w, Version.parse (Text.trim text) = .ok w →
      (i.versionInRange text = true ↔
        i.bindle.version.major = w.major ∧ i.bindle.version.minor = w.minor ∧
          i.bindle.version.patch = w.patch ∧ i.bindle.version.preRelease = w.preRelease)) ∧
      i.versionInRange i.bindle.version.toText = true := by
  refine ⟨fun text w => Version.inRange_full_iff, ?_⟩
  exact (Version.inRange_full_iff h.parse_version).2 ⟨rfl, rfl, rfl, rfl⟩

end Invoice

/-- The worked scenario as a preview of its next version. -/
def Worked.preview : Invoice :=
  { Worked.invoice with
    bindle :=
      { Worked.invoice.bindle with
        version := ⟨1, 2, 3, [.word "rc", .number 1], ["b", "7"]⟩ } }

theorem Worked.isValid_preview : Worked.preview.IsValid :=
  ⟨Worked.preview.toDraft, by decide +kernel⟩

theorem Worked.versionInRange_preview :
    Worked.preview.versionInRange " 1.2.3-rc.1+linux\n" = true ∧
      Worked.preview.versionInRange "1.2.3" = false ∧
      Worked.preview.versionInRange "1.2.3-rc.1+b.7" = true := by
  obtain ⟨hfull, hown⟩ := Invoice.versionInRange_full Worked.isValid_preview
  refine ⟨?_, ?_, hown⟩
  · refine (hfull _ ⟨1, 2, 3, [.word "rc", .number 1], ["linux"]⟩ ?_).2 ⟨rfl, rfl, rfl, rfl⟩
    decide +kernel
  · rw [Bool.eq_false_iff, Ne, hfull _ (.ofNumbers 1 2 3) (by decide +kernel)]
    decide

/-! ## Two comparators -/

namespace Requirement

variable {a b : List Char}

/-- The text can stand between commas: it is not empty, and has neither commas nor blanks. -/
structure IsPart (cs : List Char) : Prop where
  nonempty : cs ≠ []
  noComma : ',' ∉ cs
  noBlank : ∀ c ∈ cs, Text.isBlankChar c = false

theorem isPart_iff {cs : List Char} :
    IsPart cs ↔ cs ≠ [] ∧ ',' ∉ cs ∧ (cs.all fun c => !Text.isBlankChar c) = true := by
  rw [List.all_eq_true]
  simp only [Bool.not_eq_true']
  exact ⟨fun h => ⟨h.nonempty, h.noComma, h.noBlank⟩, fun ⟨hne, hcomma, hblank⟩ =>
    ⟨hne, hcomma, hblank⟩⟩

instance (cs : List Char) : Decidable (IsPart cs) :=
  decidable_of_iff _ isPart_iff.symm

/-- The requirement of two comparators, if two texts spell one each. -/
def pair? (a b : List Char) : Option Requirement :=
  (comparator? a).bind fun x => (comparator? b).map fun y => ⟨[x, y]⟩

/-- Which of two comparators comes first does not matter to the versions that meet both. -/
theorem accepts_swap (x y : Comparator) (v : Version) :
    (⟨[x, y]⟩ : Requirement).accepts v = (⟨[y, x]⟩ : Requirement).accepts v := by
  simp [Requirement.accepts, Bool.and_comm, Bool.or_comm]

theorem pair?_swap (a b : List Char) (v : Version) :
    (pair? a b).any (·.accepts v) = (pair? b a).any (·.accepts v) := by
  unfold pair?
  cases comparator? a with
  | none => cases comparator? b <;> rfl
  | some x =>
    cases comparator? b with
    | none => rfl
    | some y => exact accepts_swap x y v

/-- The text begins like a bare version. -/
def isBare (cs : List Char) : Bool :=
  cs.head?.any Char.isDigit

theorem pinned_of_not_isBare (h : isBare a = false) : pinned a = a := by
  cases a with
  | nil => rfl
  | cons c rest =>
    have hc : c.isDigit = false := h
    simp [pinned, hc]

theorem pinned_append (ha : a ≠ []) : pinned (a ++ b) = pinned a ++ b := by
  cases a with
  | nil => exact absurd rfl ha
  | cons c rest =>
    simp only [pinned, List.cons_append]
    split <;> rfl

theorem pinned_eq_or (cs : List Char) : pinned cs = cs ∨ pinned cs = '=' :: cs := by
  cases cs with
  | nil => exact .inl rfl
  | cons c rest =>
    simp only [pinned]
    split <;> simp

theorem IsPart.pinned (ha : IsPart a) : IsPart (pinned a) := by
  rcases pinned_eq_or a with h | h
  · rwa [h]
  · rw [h]
    refine ⟨List.cons_ne_nil _ _, by simpa using ha.noComma, fun c hc => ?_⟩
    rcases List.mem_cons.1 hc with rfl | hc
    · rfl
    · exact ha.noBlank c hc

theorem IsPart.trimChars (ha : IsPart a) (hb : IsPart b) :
    Text.trimChars (a ++ ',' :: b) = a ++ ',' :: b := by
  refine Text.trimChars_eq_self (fun c hc => ?_) fun c hc => ?_
  · rw [List.head?_append_of_ne_nil _ ha.nonempty] at hc
    exact ha.noBlank c (List.mem_of_head? hc)
  · rw [List.getLast?_append_of_ne_nil _ (List.cons_ne_nil _ _),
      List.getLast?_cons_of_ne_nil hb.nonempty] at hc
    exact hb.noBlank c (List.mem_of_getLast? hc)

end Requirement

open Requirement (IsPart pinned pair?)

/-- In a range of two comparators only the first is ever pinned. -/
theorem Version.inRange_pair {v : Version} {a b : String} (ha : IsPart a.toList)
    (hb : IsPart b.toList) :
    v.inRange (a ++ "," ++ b) = (pair? (pinned a.toList) b.toList).any (·.accepts v) := by
  have htext : (a ++ "," ++ b).toList = a.toList ++ ',' :: b.toList := by simp
  have hpinned := Requirement.pinned_append (b := ',' :: b.toList) ha.nonempty
  rw [Version.inRange, htext, ha.trimChars hb]
  split
  · rename_i hnil
    simp at hnil
  · rw [hpinned, Requirement.parseChars?_append_comma ha.pinned.noComma hb.noComma]
    show _ = (pair? _ _).any _
    rw [← pair?]
    cases pair? (pinned a.toList) b.toList <;> rfl

/-- A text with the equals sign of a pin written out. -/
def Requirement.pinText (text : String) : String :=
  String.ofList (pinned text.toList)

namespace Invoice

/-- **Exchanging two comparators.** Whatever two comparators a range is made of, they can change
places if the second is not bare and the first, should it be bare, gets its equals sign. So the
order of two comparators that are not bare does not matter at all. -/
theorem versionInRange_swap (i : Invoice) {a b : String} (ha : IsPart a.toList)
    (hb : IsPart b.toList) (hbare : Requirement.isBare b.toList = false) :
    i.versionInRange (a ++ "," ++ b) = i.versionInRange (b ++ "," ++ Requirement.pinText a) ∧
      (Requirement.isBare a.toList = false →
        i.versionInRange (a ++ "," ++ b) = i.versionInRange (b ++ "," ++ a)) := by
  have hpin : (Requirement.pinText a).toList = pinned a.toList := String.toList_ofList
  have hswap : i.versionInRange (a ++ "," ++ b) =
      i.versionInRange (b ++ "," ++ Requirement.pinText a) := by
    unfold versionInRange
    rw [Version.inRange_pair ha hb, Version.inRange_pair hb (hpin ▸ ha.pinned),
      Requirement.pinned_of_not_isBare hbare, hpin, Requirement.pair?_swap]
  refine ⟨hswap, fun h => ?_⟩
  rwa [Requirement.pinText, Requirement.pinned_of_not_isBare h, String.ofList_toList] at hswap

end Invoice

/-- A later release of the worked scenario. -/
def Worked.later : Invoice :=
  { Worked.invoice with
    bindle := { Worked.invoice.bindle with version := .ofNumbers 1 5 0 } }

theorem Worked.isPart_bare : IsPart "1.2.3".toList := by decide

theorem Worked.isPart_caret : IsPart "^1.0.0".toList := by decide

theorem Worked.versionInRange_later :
    Worked.later.versionInRange "1.2.3,^1.0.0" = Worked.later.versionInRange "^1.0.0,=1.2.3" :=
  (Worked.later.versionInRange_swap Worked.isPart_bare Worked.isPart_caret (by decide)).1

/-- A bare version is a pin before the comma and a caret behind it. -/
theorem Worked.versionInRange_not_symmetric :
    ¬∀ i : Invoice, i.IsValid → ∀ a b : String, IsPart a.toList → IsPart b.toList →
      i.versionInRange (a ++ "," ++ b) = i.versionInRange (b ++ "," ++ a) := by
  intro h
  have hvalid : Worked.later.IsValid := ⟨Worked.later.toDraft, by decide +kernel⟩
  have hsame := h Worked.later hvalid "1.2.3" "^1.0.0" Worked.isPart_bare Worked.isPart_caret
  revert hsame
  decide +kernel

end Bindle
