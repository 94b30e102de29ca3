/-!
# Blank characters

Names and versions are compared after removing the characters of the Unicode property
`White_Space` from both ends, so "blank" means that property and nothing wider: a zero-width
space or a byte order mark is not blank.

Main definitions: `isBlankChar`, `trim`, `isBlank`.
-/

namespace Bindle.Text

/-- The Unicode property `White_Space`. -/
def isBlankChar (c : Char) : Bool :=
  let n := c.toNat
  (0x09 ≤ n && n ≤ 0x0D) || n == 0x20 || n == 0x85 || n == 0xA0 || n == 0x1680 ||
    (0x2000 ≤ n && n ≤ 0x200A) || n == 0x2028 || n == 0x2029 || n == 0x202F || n == 0x205F ||
    n == 0x3000

/-- The characters left after dropping the blank ones from both ends. -/
def trimChars (cs : List Char) : List Char :=
  ((cs.dropWhile isBlankChar).reverse.dropWhile isBlankChar).reverse

/-- The text without the blank characters at either end. -/
def trim (s : String) : String :=
  String.ofList (trimChars s.toList)

/-- Whether every character is blank; the empty text is blank. -/
def isBlank (s : String) : Bool :=
  s.toList.all isBlankChar

/-! ## Basic facts -/

theorem toList_trim (s : String) : (trim s).toList = trimChars s.toList :=
  String.toList_ofList

/-- A text that neither begins nor ends with a blank character is left as it is. -/
theorem trimChars_eq_self {cs : List Char} (hhead : ∀ c, cs.head? = some c → isBlankChar c = false)
    (hlast : ∀ c, cs.getLast? = some c → isBlankChar c = false) : trimChars cs = cs := by
  have hdrop : ∀ {l : List Char}, (∀ c, l.head? = some c → isBlankChar c = false) →
      l.dropWhile isBlankChar = l := by
    intro l hl
    cases l with
    | nil => rfl
    | cons c rest => exact List.dropWhile_cons_of_neg (by simp [hl c rfl])
  rw [trimChars, hdrop hhead, hdrop, List.reverse_reverse]
  intro c hc
  rw [List.head?_reverse] at hc
  exact hlast c hc

theorem trimChars_trimChars (cs : List Char) : trimChars (trimChars cs) = trimChars cs := by
  have hfirst : ∀ (l : List Char) c, (l.dropWhile isBlankChar).head? = some c →
      isBlankChar c = false := by
    intro l c hc
    have := List.head?_dropWhile_not isBlankChar l
    rwa [hc] at this
  refine trimChars_eq_self (fun c hc => ?_) fun c hc => ?_
  · -- what is taken from the end leaves the first character in its place
    obtain ⟨rest, hrest⟩ : trimChars cs <+: cs.dropWhile isBlankChar := by
      rw [← List.reverse_suffix, trimChars, List.reverse_reverse]
      exact List.dropWhile_suffix _
    refine hfirst cs c ?_
    rw [← hrest, List.head?_append, hc]
    rfl
  · rw [trimChars, List.getLast?_reverse] at hc
    exact hfirst _ c hc

theorem length_trimChars_le (cs : List Char) : (trimChars cs).length ≤ cs.length := by
  have hdrop := fun l : List Char => (List.dropWhile_sublist isBlankChar (l := l)).length_le
  calc (trimChars cs).length = ((cs.dropWhile isBlankChar).reverse.dropWhile isBlankChar).length :=
        List.length_reverse
    _ ≤ (cs.dropWhile isBlankChar).length := by
        simpa using hdrop (cs.dropWhile isBlankChar).reverse
    _ ≤ cs.length := hdrop cs

theorem trim_trim (s : String) : trim (trim s) = trim s := by
  rw [trim, toList_trim, trimChars_trimChars, trim]

end Bindle.Text
