import Bindle.Proofs.Version.Reading

/-!
# Readers that stop at a comma

A comma separates the comparators of a requirement, and no part of a comparator contains one. So
what is read before a comma is what would be read if the text ended there. The readers are put
together from a few small ones, and this is shown for each way of putting readers together, and
from that for the readers of numbers and of identifiers.

* `Reader`: readers and the ways to put them together.
* `Reader.StopsAtComma`: a reader that never looks behind a comma.
* `number?`, `identifiers?`, `preRelease?`, `build?`: the readers of the parts of versions.
-/

namespace Bindle

open Version (readNumber readIdentifiers readPreRelease readBuild isIdentifierChar)

/-! ## Readers -/

/-- Reads something at the beginning of a text and leaves the rest. -/
abbrev Reader (α : Type) : Type :=
  List Char → Option (α × List Char)

namespace Reader

variable {α β : Type} {read other : Reader α} {next : α → Reader β} {p : Char → Bool} {mark : Char}
  {cs more rest : List Char}

/-- Reads nothing; the result is known already, or there is none. -/
def known (a : Option α) : Reader α := fun cs => a.map (·, cs)

/-- Reads on with the rest. -/
def andThen (read : Reader α) (next : α → Reader β) : Reader β := fun cs =>
  (read cs).bind fun r => next r.1 r.2

/-- Reads in the second way what cannot be read in the first. -/
def orElse (read other : Reader α) : Reader α := fun cs => (read cs).or (other cs)

/-- Reads one way or the other. -/
def choose (c : Prop) [Decidable c] (read other : Reader α) : Reader α :=
  if c then read else other

/-- Reads the characters in front that have a property. -/
def span (p : Char → Bool) : Reader (List Char) := fun cs =>
  some (cs.takeWhile p, cs.dropWhile p)

/-- Reads what a mark announces, and something else if the mark is not there. -/
def announced (mark : Char) (read other : Reader α) : Reader α
  | [] => other []
  | c :: rest => if c = mark then read rest else other (c :: rest)

theorem announced_self : announced mark read other (mark :: rest) = read rest :=
  if_pos rfl

theorem announced_of_ne (h : ∀ rest, cs ≠ mark :: rest) :
    announced mark read other cs = other cs := by
  cases cs with
  | nil => rfl
  | cons c rest =>
    refine if_neg fun hc => h rest ?_
    rw [hc]

/-! ## Stopping at a comma -/

/-- The reader never looks behind a comma: before one it reads what it would read at the end of
the text, and leaves as much. -/
structure StopsAtComma (read : Reader α) : Prop where
  left : ∀ {cs a rest}, read cs = some (a, rest) → ',' ∉ cs → ',' ∉ rest
  before : ∀ {cs more}, ',' ∉ cs →
    read (cs ++ ',' :: more) = (read cs).map fun r => (r.1, r.2 ++ ',' :: more)

theorem takeWhile_append_stop {c : Char} (hc : p c = false) :
    (cs ++ c :: more).takeWhile p = cs.takeWhile p := by
  induction cs with
  | nil => simp [hc]
  | cons d cs ih => cases hd : p d <;> simp [hd, ih]

theorem dropWhile_append_stop {c : Char} (hc : p c = false) :
    (cs ++ c :: more).dropWhile p = cs.dropWhile p ++ c :: more := by
  induction cs with
  | nil => simp [hc]
  | cons d cs ih => cases hd : p d <;> simp [hd, ih]

namespace StopsAtComma

theorem known (a : Option α) : (Reader.known a).StopsAtComma where
  left {cs b rest} h hcs := by
    obtain ⟨_, -, h⟩ := Option.map_eq_some_iff.1 h
    cases h
    exact hcs
  before _ := by
    cases a <;> rfl

theorem andThen (hread : read.StopsAtComma) (hnext : ∀ a, (next a).StopsAtComma) :
    (read.andThen next).StopsAtComma where
  left h hcs := by
    obtain ⟨⟨a, rest⟩, ha, hb⟩ := Option.bind_eq_some_iff.1 h
    exact (hnext a).left hb (hread.left ha hcs)
  before {cs more} hcs := by
    rw [Reader.andThen, Reader.andThen, hread.before hcs]
    cases hcase : read cs with
    | none => rfl
    | some r => exact (hnext r.1).before (hread.left hcase hcs)

theorem orElse (hread : read.StopsAtComma) (hother : other.StopsAtComma) :
    (read.orElse other).StopsAtComma where
  left {cs a rest} h hcs := by
    rcases Option.or_eq_some_iff.1 h with h | ⟨-, h⟩
    · exact hread.left h hcs
    · exact hother.left h hcs
  before {cs more} hcs := by
    rw [Reader.orElse, Reader.orElse, hread.before hcs, hother.before hcs]
    cases read cs <;> rfl

theorem choose (c : Prop) [Decidable c] (hread : read.StopsAtComma) (hother : other.StopsAtComma) :
    (Reader.choose c read other).StopsAtComma := by
  unfold Reader.choose
  split
  · exact hread
  · exact hother

theorem span (hp : p ',' = false) : (Reader.span p).StopsAtComma where
  left h hcs := by
    obtain ⟨-, rfl⟩ := Prod.mk.inj (Option.some.inj h)
    exact fun hmem => hcs (List.dropWhile_subset _ hmem)
  before _ := by
    rw [Reader.span, takeWhile_append_stop hp, dropWhile_append_stop hp]
    rfl

theorem announced (hmark : mark ≠ ',') (hread : read.StopsAtComma) (hother : other.StopsAtComma) :
    (Reader.announced mark read other).StopsAtComma where
  left {cs a rest} h hcs := by
    cases cs with
    | nil => exact hother.left h hcs
    | cons c tail =>
      rw [Reader.announced] at h
      split at h
      · exact hread.left h fun hmem => hcs (List.mem_cons_of_mem _ hmem)
      · exact hother.left h hcs
  before {cs more} hcs := by
    cases cs with
    | nil =>
      rw [List.nil_append, announced_of_ne (by simp [hmark.symm])]
      exact hother.before hcs
    | cons c tail =>
      simp only [List.cons_append, Reader.announced]
      split
      · exact hread.before fun hmem => hcs (List.mem_cons_of_mem _ hmem)
      · exact hother.before hcs

end StopsAtComma

end Reader

open Reader (announced announced_self announced_of_ne StopsAtComma)

/-! ## Numbers and identifiers -/

/-- The number that digits spell, if they are the digits of one. -/
def numberOf? : List Char → Option Nat
  | [] => none
  | '0' :: _ :: _ => none
  | digits =>
    let n := Nat.ofDigitChars 10 digits 0
    if n < UInt64.size then some n else none

/-- The reader of a number. -/
def number? (part : VersionPart) : Reader Nat := fun cs => (readNumber part cs).toOption

theorem number?_eq (part : VersionPart) :
    number? part = (Reader.span Char.isDigit).andThen fun digits => .known (numberOf? digits) := by
  funext cs
  show (readNumber part cs).toOption =
    (numberOf? (cs.takeWhile Char.isDigit)).map (·, cs.dropWhile Char.isDigit)
  unfold readNumber numberOf?
  split
  · rename_i hdigits _
    rw [hdigits]
    rfl
  · rename_i hdigits _
    rw [hdigits]
    rfl
  · rename_i hdigits
    rw [hdigits]
    rfl
  · rename_i hzero hend hother
    split
    · rename_i hdigits
      cases hrest : cs.dropWhile Char.isDigit with
      | nil => exact (hend hdigits hrest).elim
      | cons c more => exact (hother c more hdigits hrest).elim
    · rename_i hdigits
      exact (hzero _ _ hdigits).elim
    · dsimp only
      split <;> rfl

theorem stopsAtComma_number? (part : VersionPart) : (number? part).StopsAtComma := by
  rw [number?_eq]
  exact (StopsAtComma.span rfl).andThen fun digits => .known (numberOf? digits)

section Identifiers

variable {α : Type} {check : List Char → Except VersionError α}

/-- The reader of identifiers. -/
def identifiers? (part : VersionPart) (check : List Char → Except VersionError α) :
    Reader (List α) := fun cs => (readIdentifiers part check cs).toOption

/-- Reads what follows the identifier in front: a dot and more identifiers, or nothing. -/
def moreIdentifiers? (part : VersionPart) (check : List Char → Except VersionError α) (first : α) :
    Reader (List α) :=
  announced '.' ((identifiers? part check).andThen fun more => .known (some (first :: more)))
    (.known (some [first]))

theorem identifiers?_eq (part : VersionPart) (check : List Char → Except VersionError α) :
    identifiers? part check = (Reader.span isIdentifierChar).andThen fun segment =>
      .choose (segment = []) (.known none)
        ((Reader.known (check segment).toOption).andThen (moreIdentifiers? part check)) := by
  funext cs
  show (readIdentifiers part check cs).toOption = Reader.choose (cs.takeWhile isIdentifierChar = [])
    _ _ (cs.dropWhile isIdentifierChar)
  unfold Reader.choose
  rw [readIdentifiers]
  split
  · rename_i hnil
    rw [if_pos hnil]
    rfl
  · rename_i hne
    rw [if_neg hne]
    cases hcheck : check (cs.takeWhile isIdentifierChar) with
    | error e => rfl
    | ok first =>
      show _ = moreIdentifiers? part check first (cs.dropWhile isIdentifierChar)
      simp only [bind, Except.bind]
      split
      · rename_i rest hrest
        rw [hrest, moreIdentifiers?, announced_self]
        show _ = ((readIdentifiers part check rest).toOption).bind _
        cases readIdentifiers part check rest <;> rfl
      · rename_i hnodot
        rw [moreIdentifiers?, announced_of_ne hnodot]
        rfl

theorem toOption_eq_some_iff {ε β : Type} {x : Except ε β} {b : β} :
    x.toOption = some b ↔ x = .ok b := by
  cases x <;> simp [Except.toOption]

/-- The identifiers behind a dot are read in the same way, so this goes by induction on them. -/
theorem stopsAtComma_identifiers? (part : VersionPart)
    (check : List Char → Except VersionError α) : (identifiers? part check).StopsAtComma where
  left {cs ids rest} h hcs := by
    induction cs using Version.readIdentifiers.induct generalizing ids with
    | case1 cs hnil =>
      exact absurd hnil (Version.readIdentifiers_eq_ok_iff.1 (toOption_eq_some_iff.1 h)).1
    | case2 cs _ ih =>
      have hdrop : ',' ∉ cs.dropWhile isIdentifierChar := fun h => hcs (List.dropWhile_subset _ h)
      obtain ⟨-, first, -, ⟨more, left, hleft, hmore, -⟩ | ⟨-, rfl, -⟩⟩ :=
        Version.readIdentifiers_eq_ok_iff.1 (toOption_eq_some_iff.1 h)
      · rw [hleft] at hdrop
        exact ih left hleft (toOption_eq_some_iff.2 hmore) fun h => hdrop (List.mem_cons_of_mem _ h)
      · exact hdrop
  before {cs more} hcs := by
    have hcomma : isIdentifierChar ',' = false := by decide
    induction cs using Version.readIdentifiers.induct with
    | case1 cs hnil =>
      simp [identifiers?_eq, Reader.andThen, Reader.span, Reader.choose, Reader.known,
        Reader.takeWhile_append_stop hcomma, hnil]
    | case2 cs hne ih =>
      have hne' : cs.takeWhile isIdentifierChar ≠ [] := hne
      have hdrop : ',' ∉ cs.dropWhile isIdentifierChar := fun h => hcs (List.dropWhile_subset _ h)
      have hmore : ∀ first, moreIdentifiers? part check first
          (cs.dropWhile isIdentifierChar ++ ',' :: more) =
            (moreIdentifiers? part check first (cs.dropWhile isIdentifierChar)).map
              fun r => (r.1, r.2 ++ ',' :: more) := by
        intro first
        cases hleft : cs.dropWhile isIdentifierChar with
        | nil => rfl
        | cons c left =>
          rw [hleft] at hdrop
          by_cases hc : c = '.'
          · subst hc
            have hbehind := ih left hleft fun h => hdrop (List.mem_cons_of_mem _ h)
            rw [moreIdentifiers?, List.cons_append, announced_self, announced_self, Reader.andThen,
              Reader.andThen, hbehind]
            cases identifiers? part check left <;> rfl
          · rw [moreIdentifiers?, announced_of_ne (by simp [hc]), announced_of_ne (by simp [hc])]
            rfl
      simp only [identifiers?_eq, Reader.andThen, Reader.span, Reader.choose, Reader.known,
        Reader.takeWhile_append_stop hcomma, Reader.dropWhile_append_stop hcomma, if_neg hne',
        Option.bind_some]
      cases (check (cs.takeWhile isIdentifierChar)).toOption with
      | none => rfl
      | some first => exact hmore first

end Identifiers

/-- The reader of a pre-release. -/
def preRelease? : Reader PreRelease := fun cs => (readPreRelease cs).toOption

theorem stopsAtComma_preRelease? : preRelease?.StopsAtComma := by
  have heq : preRelease? =
      announced '-' (identifiers? .preRelease Version.preIdentifier) (.known (some [])) := by
    funext cs
    unfold preRelease? readPreRelease
    split
    · rfl
    · rename_i hnone
      rw [announced_of_ne hnone]
      rfl
  rw [heq]
  exact .announced (by decide) (stopsAtComma_identifiers? _ _) (.known _)

/-- The reader of a build. -/
def build? : Reader (List String) := fun cs => (readBuild cs).toOption

theorem stopsAtComma_build? : build?.StopsAtComma := by
  have heq : build? = announced '+' (identifiers? .build fun segment => .ok (String.ofList segment))
      (.known (some [])) := by
    funext cs
    unfold build? readBuild
    split
    · rfl
    · rename_i hnone
      rw [announced_of_ne hnone]
      rfl
  rw [heq]
  exact .announced (by decide) (stopsAtComma_identifiers? _ _) (.known _)

end Bindle
