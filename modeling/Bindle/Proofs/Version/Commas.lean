import Bindle.Proofs.Version.Readers
import Bindle.Version.Requirement

/-!
# Commas in requirements

A comparator is read part by part, and each part is read by a reader that stops at a comma. So the
comparators of a requirement are read one by one, each as if it were alone. A wildcard is a
requirement only if nothing follows it; with a comma behind it nothing is read at all.

* `readComparator?_eq`: how a comparator is read.
* `comparator?`: the comparator that a text spells.
* `parseChars?_append_comma`: two comparators with a comma between them.
-/

namespace Bindle

open Version (readNumber readPreRelease readBuild)
open Reader (announced announced_self announced_of_ne StopsAtComma)

/-! ## Comparators -/

namespace Requirement

/-- Reads an equals sign that may follow an operator. -/
def orEqual (withEqual without : Operator) : Reader (Option Operator) :=
  announced '=' (.known (some (some withEqual))) (.known (some (some without)))

/-- The reader of an operator. -/
def operator? : Reader (Option Operator) := fun cs => some (readOperator cs)

theorem operator?_eq : operator? =
    announced '=' (.known (some (some .exact)))
      (announced '>' (orEqual .greaterOrEqual .greater)
        (announced '<' (orEqual .lessOrEqual .less)
          (announced '~' (.known (some (some .tilde)))
            (announced '^' (.known (some (some .caret))) (.known (some none)))))) := by
  funext cs
  unfold operator? readOperator
  split
  · rfl
  · rfl
  · rename_i rest hother
    show some (some Operator.greater, rest) = orEqual .greaterOrEqual .greater rest
    rw [orEqual, announced_of_ne hother]
    rfl
  · rfl
  · rename_i rest hother
    show some (some Operator.less, rest) = orEqual .lessOrEqual .less rest
    rw [orEqual, announced_of_ne hother]
    rfl
  · rfl
  · rfl
  · rename_i hexact _ hgreater _ hless htilde hcaret
    rw [announced_of_ne hexact, announced_of_ne hgreater, announced_of_ne hless,
      announced_of_ne htilde, announced_of_ne hcaret]
    rfl

theorem stopsAtComma_orEqual (withEqual without : Operator) :
    (orEqual withEqual without).StopsAtComma :=
  .announced (by decide) (.known _) (.known _)

theorem stopsAtComma_operator? : operator?.StopsAtComma := by
  rw [operator?_eq]
  refine .announced (by decide) (.known _) ?_
  refine .announced (by decide) (stopsAtComma_orEqual _ _) ?_
  refine .announced (by decide) (stopsAtComma_orEqual _ _) ?_
  refine .announced (by decide) (.known _) ?_
  exact .announced (by decide) (.known _) (.known _)

/-- The reader of spaces. -/
def spaces : Reader Unit := fun cs => some ((), skipSpaces cs)

theorem stopsAtComma_spaces : spaces.StopsAtComma := by
  have heq : spaces = (Reader.span (· == ' ')).andThen fun _ => .known (some ()) := rfl
  rw [heq]
  exact (StopsAtComma.span (by decide)).andThen fun _ => .known _

/-- The reader of a wildcard. -/
def wildcardSlot? : Reader Slot := fun cs => (wildcard? cs).map (Slot.wildcard, ·)

theorem stopsAtComma_wildcardSlot? : wildcardSlot?.StopsAtComma := by
  have heq : wildcardSlot? = announced '*' (.known (some .wildcard))
      (announced 'x' (.known (some .wildcard))
        (announced 'X' (.known (some .wildcard)) (.known none))) := by
    funext cs
    unfold wildcardSlot? wildcard?
    split
    · rfl
    · rfl
    · rfl
    · rename_i hstar hx hX
      rw [announced_of_ne hstar, announced_of_ne hx, announced_of_ne hX]
      rfl
  rw [heq]
  refine .announced (by decide) (.known _) ?_
  refine .announced (by decide) (.known _) ?_
  exact .announced (by decide) (.known _) (.known _)

theorem stopsAtComma_readSlot? (part : VersionPart) :
    Reader.StopsAtComma (readSlot? part) := by
  have heq : readSlot? part = announced '.'
      (wildcardSlot?.orElse ((number? part).andThen fun n => .known (some (.number n))))
      (.known (some .missing)) := by
    funext cs
    unfold readSlot?
    split
    · rename_i rest
      rw [announced_self, Reader.orElse, wildcardSlot?, Reader.andThen, number?]
      cases wildcard? rest with
      | some left => rfl
      | none => cases readNumber part rest <;> rfl
    · rename_i hnone
      rw [announced_of_ne hnone]
      rfl
  rw [heq]
  refine .announced (by decide) (stopsAtComma_wildcardSlot?.orElse ?_) (.known _)
  exact (stopsAtComma_number? part).andThen fun n => .known _

/-- Reads what may follow a patch number, and only there. -/
def behindPatch {α : Type} (patch : Slot) (read : Reader α) (otherwise : α) : Reader α :=
  .choose (patch.number?.isSome) read (.known (some otherwise))

/-- A comparator is read part by part. -/
theorem readComparator?_eq : readComparator? =
    operator?.andThen fun written => spaces.andThen fun _ =>
    (number? .major).andThen fun major => Reader.andThen (readSlot? .minor) fun minor =>
    Reader.andThen (readSlot? .patch) fun patch =>
    .choose (minor = .wildcard ∧ patch.number?.isSome) (.known none)
      ((behindPatch patch preRelease? []).andThen fun preRelease =>
      (behindPatch patch build? []).andThen fun _ => spaces.andThen fun _ =>
      .known (some ⟨written.getD
          (if minor = .wildcard ∨ patch = .wildcard then .wildcard else .caret),
        major, minor.number?, patch.number?, preRelease⟩)) := by
  funext cs
  unfold readComparator?
  simp only [bind, pure]
  refine congrArg _ (funext fun major => ?_)
  show (readSlot? .minor major.2).bind _ = (readSlot? .minor major.2).bind _
  refine congrArg _ (funext fun minor => ?_)
  show (readSlot? .patch minor.2).bind _ = (readSlot? .patch minor.2).bind _
  refine congrArg _ (funext fun patch => ?_)
  simp only [Reader.choose]
  split
  · rfl
  · unfold behindPatch Reader.choose
    split <;> rfl

theorem stopsAtComma_behindPatch {α : Type} {read : Reader α} (patch : Slot) (otherwise : α)
    (hread : read.StopsAtComma) : (behindPatch patch read otherwise).StopsAtComma :=
  .choose _ hread (.known _)

theorem stopsAtComma_readComparator? : Reader.StopsAtComma readComparator? := by
  rw [readComparator?_eq]
  refine stopsAtComma_operator?.andThen fun written => ?_
  refine stopsAtComma_spaces.andThen fun _ => ?_
  refine (stopsAtComma_number? _).andThen fun major => ?_
  refine (stopsAtComma_readSlot? _).andThen fun minor => ?_
  refine (stopsAtComma_readSlot? _).andThen fun patch => ?_
  refine .choose _ (.known _) ?_
  refine (stopsAtComma_behindPatch patch _ stopsAtComma_preRelease?).andThen fun preRelease => ?_
  refine (stopsAtComma_behindPatch patch _ stopsAtComma_build?).andThen fun _ => ?_
  exact stopsAtComma_spaces.andThen fun _ => .known _

/-! ## Two comparators -/

variable {cs a b : List Char} {c : Comparator}

/-- The comparator that a text spells, with nothing left over. -/
def comparator? (cs : List Char) : Option Comparator :=
  (readComparator? (skipSpaces cs)).bind fun r => if r.2 = [] then some r.1 else none

theorem comparator?_eq_none_of_wildcard? {rest : List Char}
    (h : wildcard? (skipSpaces cs) = some rest) : comparator? cs = none := by
  unfold wildcard? at h
  split at h
  · rename_i heq
    rw [comparator?, heq]
    rfl
  · rename_i heq
    rw [comparator?, heq]
    rfl
  · rename_i heq
    rw [comparator?, heq]
    rfl
  · cases h

theorem not_mem_skipSpaces (hcs : ',' ∉ cs) : ',' ∉ skipSpaces cs :=
  fun h => hcs (List.dropWhile_subset _ h)

theorem skipSpaces_append_comma : skipSpaces (a ++ ',' :: b) = skipSpaces a ++ ',' :: b :=
  Reader.dropWhile_append_stop (by decide)

theorem readComparators?_last (limit : Nat) (hcs : ',' ∉ cs) :
    readComparators? (limit + 1) (skipSpaces cs) = (comparator? cs).map ([·]) := by
  rw [readComparators?, comparator?]
  cases hread : readComparator? (skipSpaces cs) with
  | none => rfl
  | some r =>
    obtain ⟨c, rest⟩ := r
    have hrest := stopsAtComma_readComparator?.left hread (not_mem_skipSpaces hcs)
    cases rest with
    | nil => rfl
    | cons d rest =>
      have hd : d ≠ ',' := fun h => hrest (h ▸ List.mem_cons_self)
      simp [hd]

theorem readComparators?_append_comma (limit : Nat) (ha : ',' ∉ a) (hb : ',' ∉ b) :
    readComparators? (limit + 2) (skipSpaces (a ++ ',' :: b)) =
      (comparator? a).bind fun x => (comparator? b).map fun y => [x, y] := by
  rw [skipSpaces_append_comma, readComparators?, comparator?,
    stopsAtComma_readComparator?.before (not_mem_skipSpaces ha)]
  cases hread : readComparator? (skipSpaces a) with
  | none => rfl
  | some r =>
    obtain ⟨c, rest⟩ := r
    have hrest := stopsAtComma_readComparator?.left hread (not_mem_skipSpaces ha)
    cases rest with
    | nil =>
      have hlast := readComparators?_last limit hb
      cases hb : comparator? b <;> simp [hlast, hb]
    | cons d rest =>
      have hd : d ≠ ',' := fun h => hrest (h ▸ List.mem_cons_self)
      simp [hd]

theorem wildcard?_append_comma (hcs : ',' ∉ cs) :
    wildcard? (cs ++ ',' :: b) = (wildcard? cs).map (· ++ ',' :: b) := by
  have hread : wildcardSlot? (cs ++ ',' :: b) = _ := stopsAtComma_wildcardSlot?.before hcs
  have h := congrArg (Option.map Prod.snd) hread
  simpa [wildcardSlot?, Function.comp_def] using h

/-- A requirement of two comparators is read as both of them, in their order. -/
theorem parseChars?_append_comma (ha : ',' ∉ a) (hb : ',' ∉ b) :
    parseChars? (a ++ ',' :: b) =
      (comparator? a).bind fun x => (comparator? b).map fun y => ⟨[x, y]⟩ := by
  have hread : readComparators? 32 (skipSpaces (a ++ ',' :: b)) = _ :=
    readComparators?_append_comma 30 ha hb
  simp only [parseChars?, hread]
  rw [skipSpaces_append_comma, wildcard?_append_comma (not_mem_skipSpaces ha)]
  cases hwild : wildcard? (skipSpaces a) with
  | some rest =>
    -- a wildcard stands alone; as the beginning of a comparator it is not read either
    rw [comparator?_eq_none_of_wildcard? hwild]
    simp [skipSpaces_append_comma]
  | none =>
    cases comparator? a <;> cases comparator? b <;> rfl

end Requirement

end Bindle
