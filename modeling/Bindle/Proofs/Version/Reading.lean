import Bindle.Version.Reader
import Mathlib.Data.List.Induction

/-!
# Reading versions and writing them

There is only one way to write a version: a number has no superfluous zero in front, so its digits
are known from its value, and identifiers are kept as they were found. So the text from which a
version was read can be had back by writing the version down.

* `toDigits_ofDigitChars`: digits from a value, and `readNumber_eq_ok`.
* `readIdentifiers_eq_ok_iff`: how identifiers are read; `readIdentifiers_eq_ok` has them back.
* `parseChars_eq_ok`: the parts of a version, each read from what the one before it left.
* `toText_of_parse`: the text of a version that was read.
* `isVersionChar_of_parse`: the characters of versions.
-/

namespace Bindle.Version

variable {part : VersionPart} {cs rest : List Char} {n : Nat}

theorem bind_eq_ok {ε α β : Type} {x : Except ε α} {f : α → Except ε β} {b : β} :
    (x >>= f) = .ok b ↔ ∃ a, x = .ok a ∧ f a = .ok b := by
  cases x with
  | error e => simp [bind, Except.bind]
  | ok a => simp [bind, Except.bind]

/-! ## Numbers -/

theorem digitChar_toNat_sub {c : Char} (h : c.isDigit = true) :
    c.toNat - '0'.toNat < 10 ∧ Nat.digitChar (c.toNat - '0'.toNat) = c := by
  simp only [Char.isDigit, Bool.and_eq_true, decide_eq_true_eq] at h
  have hlow : '0'.toNat ≤ c.toNat := UInt32.le_iff_toNat_le.1 h.1
  have hhigh : c.toNat ≤ '9'.toNat := UInt32.le_iff_toNat_le.1 h.2
  have hlt : c.toNat - '0'.toNat < 10 := by
    have hten : '9'.toNat < '0'.toNat + 10 := by decide
    omega
  refine ⟨hlt, ?_⟩
  rw [← Char.toNat_inj, Nat.toNat_digitChar_of_lt_ten hlt]
  exact Nat.add_sub_of_le hlow

/-- Digits without a superfluous zero in front are those of the number that they spell. -/
theorem toDigits_ofDigitChars {ds : List Char} (hds : ∀ c ∈ ds, c.isDigit = true) (hne : ds ≠ [])
    (hzero : ∀ c more, ds ≠ '0' :: c :: more) :
    Nat.toDigits 10 (Nat.ofDigitChars 10 ds 0) = ds := by
  induction ds using List.reverseRecOn with
  | nil => exact absurd rfl hne
  | append_singleton front c ih =>
    obtain ⟨hlt, hc⟩ := digitChar_toNat_sub (hds c (by simp))
    rw [Nat.ofDigitChars_append, Nat.ofDigitChars_cons, Nat.ofDigitChars_nil]
    cases front with
    | nil =>
      rw [Nat.ofDigitChars_nil, Nat.mul_zero, Nat.zero_add, Nat.toDigits_of_lt_base hlt, hc]
      rfl
    | cons d front =>
      have hfront := ih (fun c hc => hds c (List.mem_append_left _ hc)) (List.cons_ne_nil _ _)
        fun c' more heq => hzero c' (more ++ [c]) (by rw [heq]; rfl)
      -- a zero in front would stand before the last digit
      have hpos : 0 < Nat.ofDigitChars 10 (d :: front) 0 := by
        rw [Nat.pos_iff_ne_zero]
        intro heq
        rw [heq, Nat.toDigits_zero] at hfront
        exact hzero c [] (by rw [← hfront]; rfl)
      rw [← Nat.toDigits_append_toDigits (by decide) hpos hlt, hfront,
        Nat.toDigits_of_lt_base hlt, hc]

theorem toList_toString (n : Nat) : (toString n).toList = Nat.toDigits 10 n :=
  Nat.toList_repr

theorem exists_digit (n : Nat) : ∃ c more, (toString n).toList = c :: more ∧ c.isDigit = true := by
  rw [toList_toString]
  obtain ⟨c, more, hcons⟩ := List.exists_cons_of_ne_nil (Nat.toDigits_ne_nil (n := n) (b := 10))
  have hmem : c ∈ Nat.toDigits 10 n := by
    rw [hcons]
    exact List.mem_cons_self
  exact ⟨c, more, hcons, Nat.isDigit_of_mem_toDigits (by decide) (by decide) hmem⟩

theorem readNumber_eq_ok (h : readNumber part cs = .ok (n, rest)) :
    cs = (toString n).toList ++ rest := by
  unfold readNumber at h
  split at h
  · cases h
  · cases h
  · cases h
  · rename_i hzero hend hother
    dsimp only at h
    split at h
    · obtain ⟨rfl, rfl⟩ := Prod.mk.inj (Except.ok.inj h)
      have hne : cs.takeWhile Char.isDigit ≠ [] := by
        intro hnil
        cases hrest : cs.dropWhile Char.isDigit with
        | nil => exact hend hnil hrest
        | cons c more => exact hother c more hnil hrest
      have hall := List.all_eq_true.1 (List.all_takeWhile (p := Char.isDigit) (l := cs))
      rw [toList_toString, toDigits_ofDigitChars hall hne hzero, List.takeWhile_append_dropWhile]
    · cases h

/-- A number begins with a digit. -/
theorem exists_digit_of_readNumber (h : readNumber part cs = .ok (n, rest)) :
    ∃ c more, cs = c :: more ∧ c.isDigit = true := by
  obtain ⟨c, more, hdigits, hc⟩ := exists_digit n
  refine ⟨c, more ++ rest, ?_, hc⟩
  rw [readNumber_eq_ok h, hdigits, List.cons_append]

theorem readDot_eq_ok (h : readDot part cs = .ok rest) : cs = '.' :: rest := by
  unfold readDot at h
  split at h
  · rw [Except.ok.inj h]
  · cases h
  · cases h

/-! ## Identifiers -/

section Identifiers

variable {α : Type} {check : List Char → Except VersionError α} {ids : List α}

/-- The identifier in front is read, and the others if a dot follows. -/
theorem readIdentifiers_eq_ok_iff :
    readIdentifiers part check cs = .ok (ids, rest) ↔
      cs.takeWhile isIdentifierChar ≠ [] ∧
        ∃ first, check (cs.takeWhile isIdentifierChar) = .ok first ∧
          ((∃ more left, cs.dropWhile isIdentifierChar = '.' :: left ∧
              readIdentifiers part check left = .ok (more, rest) ∧ ids = first :: more) ∨
            ((∀ left, cs.dropWhile isIdentifierChar ≠ '.' :: left) ∧
              rest = cs.dropWhile isIdentifierChar ∧ ids = [first])) := by
  rw [readIdentifiers]
  split
  · rename_i hnil
    simp [hnil]
  · rename_i hne
    rw [bind_eq_ok, and_iff_right (show cs.takeWhile isIdentifierChar ≠ [] from hne)]
    refine exists_congr fun first => and_congr_right fun _ => ?_
    split
    · rename_i left hleft
      rw [bind_eq_ok]
      simp [hleft, pure, Except.pure, eq_comm]
    · rename_i hnodot
      have hnodot' : ∀ left, cs.dropWhile isIdentifierChar ≠ '.' :: left := hnodot
      simp [pure, Except.pure, hnodot', eq_comm, and_comm]

/-- Identifiers that are read are written with dots between them. -/
theorem readIdentifiers_eq_ok {text : α → String}
    (hcheck : ∀ segment a, segment ≠ [] → check segment = .ok a → (text a).toList = segment)
    (h : readIdentifiers part check cs = .ok (ids, rest)) :
    ids ≠ [] ∧ cs = (".".intercalate (ids.map text)).toList ++ rest := by
  induction cs using readIdentifiers.induct generalizing ids with
  | case1 cs hnil => exact absurd hnil (readIdentifiers_eq_ok_iff.1 h).1
  | case2 cs _ ih =>
    obtain ⟨hne, first, hfirst, hrest⟩ := readIdentifiers_eq_ok_iff.1 h
    have htext := hcheck _ _ hne hfirst
    have hsplit : cs = (text first).toList ++ cs.dropWhile isIdentifierChar := by
      rw [htext, List.takeWhile_append_dropWhile]
    rcases hrest with ⟨more, left, hleft, hmore, rfl⟩ | ⟨-, rfl, rfl⟩
    · obtain ⟨hsome, hleft'⟩ := ih left hleft hmore
      refine ⟨List.cons_ne_nil _ _, ?_⟩
      obtain ⟨second, others, rfl⟩ := List.exists_cons_of_ne_nil hsome
      rw [hleft, hleft'] at hsplit
      rw [hsplit]
      simp [String.toList_intercalate]
    · refine ⟨List.cons_ne_nil _ _, ?_⟩
      simpa [String.toList_intercalate] using hsplit

end Identifiers

theorem toText_preIdentifier {segment : List Char} {a : PreIdentifier} (hne : segment ≠ [])
    (h : preIdentifier segment = .ok a) : a.toText.toList = segment := by
  unfold preIdentifier at h
  split at h
  · rename_i hdigits
    split at h
    · cases h
    · rename_i hzero
      rw [← Except.ok.inj h, PreIdentifier.toText, toList_toString]
      exact toDigits_ofDigitChars (List.all_eq_true.1 hdigits) hne hzero
  · rw [← Except.ok.inj h]
    exact String.toList_ofList

/-! ## Whole versions -/

/-- The pre-release as it is written, with the hyphen that announces it. -/
def preReleaseText (preRelease : PreRelease) : String :=
  if preRelease = [] then ""
  else "-" ++ ".".intercalate (preRelease.map PreIdentifier.toText)

/-- The build as it is written, with the plus sign that announces it. -/
def buildText (build : List String) : String :=
  if build = [] then "" else "+" ++ ".".intercalate build

theorem readPreRelease_eq_ok {preRelease : PreRelease}
    (h : readPreRelease cs = .ok (preRelease, rest)) :
    cs = (preReleaseText preRelease).toList ++ rest := by
  unfold readPreRelease at h
  split at h
  · obtain ⟨hne, hcs⟩ := readIdentifiers_eq_ok (fun _ _ => toText_preIdentifier) h
    simp [preReleaseText, hne, hcs]
  · obtain ⟨rfl, rfl⟩ := Prod.mk.inj (Except.ok.inj h)
    simp [preReleaseText]

theorem readBuild_eq_ok {build : List String} (h : readBuild cs = .ok (build, rest)) :
    cs = (buildText build).toList ++ rest := by
  unfold readBuild at h
  split at h
  · have hkept : ∀ (segment : List Char) (a : String), segment ≠ [] →
        (.ok (String.ofList segment) : Except VersionError String) = .ok a →
        (id a).toList = segment := by
      intro segment a _ ha
      rw [← Except.ok.inj ha]
      exact String.toList_ofList
    obtain ⟨hne, hcs⟩ := readIdentifiers_eq_ok hkept h
    simp [buildText, hne, hcs]
  · obtain ⟨rfl, rfl⟩ := Prod.mk.inj (Except.ok.inj h)
    simp [buildText]

/-- A version is read part by part, and nothing is left over. -/
theorem parseChars_eq_ok {v : Version} (h : parseChars cs = .ok v) :
    ∃ afterMajor afterMinor afterPatch afterPreRelease,
      readNumber .major cs = .ok (v.major, '.' :: afterMajor) ∧
      readNumber .minor afterMajor = .ok (v.minor, '.' :: afterMinor) ∧
      readNumber .patch afterMinor = .ok (v.patch, afterPatch) ∧
      readPreRelease afterPatch = .ok (v.preRelease, afterPreRelease) ∧
      readBuild afterPreRelease = .ok (v.build, []) := by
  unfold parseChars at h
  split at h
  · cases h
  · obtain ⟨⟨major, cs₁⟩, hmajor, h⟩ := bind_eq_ok.1 h
    obtain ⟨cs₂, hdot, h⟩ := bind_eq_ok.1 h
    obtain ⟨⟨minor, cs₃⟩, hminor, h⟩ := bind_eq_ok.1 h
    obtain ⟨cs₄, hdot', h⟩ := bind_eq_ok.1 h
    obtain ⟨⟨patch, cs₅⟩, hpatch, h⟩ := bind_eq_ok.1 h
    obtain ⟨⟨preRelease, cs₆⟩, hpreRelease, h⟩ := bind_eq_ok.1 h
    obtain ⟨⟨build, cs₇⟩, hbuild, h⟩ := bind_eq_ok.1 h
    rw [readDot_eq_ok hdot] at hmajor
    rw [readDot_eq_ok hdot'] at hminor
    dsimp only at h
    split at h
    · rw [← Except.ok.inj h]
      exact ⟨cs₂, cs₄, cs₅, cs₆, hmajor, hminor, hpatch, hpreRelease, hbuild⟩
    · cases h

theorem toText_eq (v : Version) :
    v.toText = toString v.major ++ "." ++ toString v.minor ++ "." ++ toString v.patch ++
      preReleaseText v.preRelease ++ buildText v.build := rfl

/-- **A version is written in one way.** The text that is read is the text of the version. -/
theorem toText_of_parse {text : String} {v : Version} (h : parse text = .ok v) :
    v.toText = text := by
  obtain ⟨afterMajor, afterMinor, afterPatch, afterPreRelease, hmajor, hminor, hpatch,
    hpreRelease, hbuild⟩ := parseChars_eq_ok h
  rw [← String.toList_inj, readNumber_eq_ok hmajor, readNumber_eq_ok hminor,
    readNumber_eq_ok hpatch, readPreRelease_eq_ok hpreRelease, readBuild_eq_ok hbuild, toText_eq]
  simp

/-! ## Characters -/

/-- The characters of versions: those of identifiers, the dot and the plus sign. -/
def isVersionChar (c : Char) : Bool :=
  isIdentifierChar c || c == '.' || c == '+'

theorem isVersionChar_of_isDigit {c : Char} (h : c.isDigit = true) : isVersionChar c = true := by
  simp [isVersionChar, isIdentifierChar, Char.isAlphanum, h]

theorem isVersionChar_of_readNumber (h : readNumber part cs = .ok (n, rest))
    (hrest : ∀ c ∈ rest, isVersionChar c = true) : ∀ c ∈ cs, isVersionChar c = true := by
  rw [readNumber_eq_ok h, List.forall_mem_append]
  refine ⟨fun c hc => isVersionChar_of_isDigit ?_, hrest⟩
  rw [toList_toString] at hc
  exact Nat.isDigit_of_mem_toDigits (by decide) (by decide) hc

theorem isVersionChar_of_readIdentifiers {α : Type} {check : List Char → Except VersionError α}
    {ids : List α} (h : readIdentifiers part check cs = .ok (ids, rest))
    (hrest : ∀ c ∈ rest, isVersionChar c = true) : ∀ c ∈ cs, isVersionChar c = true := by
  induction cs using readIdentifiers.induct generalizing ids with
  | case1 cs hnil => exact absurd hnil (readIdentifiers_eq_ok_iff.1 h).1
  | case2 cs _ ih =>
    obtain ⟨-, first, -, hmore⟩ := readIdentifiers_eq_ok_iff.1 h
    have hfront : ∀ c ∈ cs.takeWhile isIdentifierChar, isVersionChar c = true := by
      intro c hc
      simp [isVersionChar, List.all_eq_true.1 List.all_takeWhile c hc]
    have hback : ∀ c ∈ cs.dropWhile isIdentifierChar, isVersionChar c = true := by
      rcases hmore with ⟨more, left, hleft, hread, -⟩ | ⟨-, hend, -⟩
      · rw [hleft, List.forall_mem_cons]
        exact ⟨rfl, ih left hleft hread⟩
      · rwa [← hend]
    rw [← List.takeWhile_append_dropWhile (p := isIdentifierChar) (l := cs),
      List.forall_mem_append]
    exact ⟨hfront, hback⟩

theorem isVersionChar_of_readPreRelease {preRelease : PreRelease}
    (h : readPreRelease cs = .ok (preRelease, rest))
    (hrest : ∀ c ∈ rest, isVersionChar c = true) : ∀ c ∈ cs, isVersionChar c = true := by
  unfold readPreRelease at h
  split at h
  · rw [List.forall_mem_cons]
    exact ⟨rfl, isVersionChar_of_readIdentifiers h hrest⟩
  · obtain ⟨-, rfl⟩ := Prod.mk.inj (Except.ok.inj h)
    exact hrest

theorem isVersionChar_of_readBuild {build : List String} (h : readBuild cs = .ok (build, rest))
    (hrest : ∀ c ∈ rest, isVersionChar c = true) : ∀ c ∈ cs, isVersionChar c = true := by
  unfold readBuild at h
  split at h
  · rw [List.forall_mem_cons]
    exact ⟨rfl, isVersionChar_of_readIdentifiers h hrest⟩
  · obtain ⟨-, rfl⟩ := Prod.mk.inj (Except.ok.inj h)
    exact hrest

/-- A text that is read as a version has no other characters. -/
theorem isVersionChar_of_parse {text : String} {v : Version} (h : parse text = .ok v) :
    ∀ c ∈ text.toList, isVersionChar c = true := by
  obtain ⟨afterMajor, afterMinor, afterPatch, afterPreRelease, hmajor, hminor, hpatch,
    hpreRelease, hbuild⟩ := parseChars_eq_ok h
  have hdot : ∀ {left : List Char}, (∀ c ∈ left, isVersionChar c = true) →
      ∀ c ∈ '.' :: left, isVersionChar c = true :=
    fun hleft => List.forall_mem_cons.2 ⟨rfl, hleft⟩
  have hend : ∀ c ∈ afterPreRelease, isVersionChar c = true :=
    isVersionChar_of_readBuild hbuild (by simp)
  have hpatchChars := isVersionChar_of_readPreRelease hpreRelease hend
  have hminorChars := isVersionChar_of_readNumber hpatch hpatchChars
  have hmajorChars := isVersionChar_of_readNumber hminor (hdot hminorChars)
  exact isVersionChar_of_readNumber hmajor (hdot hmajorChars)

end Bindle.Version
