/-!
# Sets of names

The groups a caller opts into form a set: naming one twice or in another order changes nothing. A
set is kept as the list of its names in ascending order, each once, so equal sets are equal lists.

Main definitions: `NameSet`, `insert`, `union`, `ofList`.
-/

namespace Bindle

/-- A finite set of names, in ascending order. -/
structure NameSet where
  names : List String
  ascending : names.Pairwise (· < ·)
  deriving DecidableEq

namespace NameSet

/-- The set without names. -/
def empty : NameSet := ⟨[], .nil⟩

instance : Inhabited NameSet := ⟨empty⟩

instance : Membership String NameSet := ⟨fun s name => name ∈ s.names⟩

instance (name : String) (s : NameSet) : Decidable (name ∈ s) :=
  inferInstanceAs (Decidable (name ∈ s.names))

/-- The names with one more, in order. -/
def insertName (name : String) : List String → List String
  | [] => [name]
  | n :: rest =>
    if name < n then name :: n :: rest
    else if name = n then n :: rest
    else n :: insertName name rest

theorem mem_insertName {name n : String} {ns : List String} :
    n ∈ insertName name ns ↔ n = name ∨ n ∈ ns := by
  induction ns with
  | nil => simp [insertName]
  | cons hd tl ih =>
    rw [insertName]
    split
    · simp
    · split
      · rename_i heq
        simp [heq]
      · rw [List.mem_cons, ih, List.mem_cons]
        exact or_left_comm

theorem insertName_ascending (name : String) {ns : List String} (h : ns.Pairwise (· < ·)) :
    (insertName name ns).Pairwise (· < ·) := by
  induction ns with
  | nil => simp [insertName]
  | cons hd tl ih =>
    obtain ⟨hhd, htl⟩ := List.pairwise_cons.1 h
    rw [insertName]
    split
    · rename_i hlt
      refine List.pairwise_cons.2 ⟨fun n hn => ?_, h⟩
      rcases List.mem_cons.1 hn with rfl | hn
      · exact hlt
      · exact String.lt_trans hlt (hhd n hn)
    · rename_i hlt
      split
      · exact h
      · rename_i hne
        refine List.pairwise_cons.2 ⟨fun n hn => ?_, ih htl⟩
        rcases mem_insertName.1 hn with rfl | hn
        · exact String.not_le.1 fun hle => hne (String.le_antisymm hle (String.not_lt.1 hlt))
        · exact hhd n hn

/-- The set with one more name. -/
def insert (s : NameSet) (name : String) : NameSet :=
  ⟨insertName name s.names, insertName_ascending name s.ascending⟩

/-- The names of either set. -/
def union (s other : NameSet) : NameSet :=
  other.names.foldl insert s

/-- The set of the names in a list. -/
def ofList (names : List String) : NameSet :=
  names.foldl insert empty

/-! ## Membership -/

theorem not_mem_empty (name : String) : name ∉ empty := List.not_mem_nil

theorem mem_insert {s : NameSet} {name n : String} : n ∈ s.insert name ↔ n = name ∨ n ∈ s :=
  mem_insertName

theorem mem_foldl_insert {names : List String} {s : NameSet} {n : String} :
    n ∈ names.foldl insert s ↔ n ∈ s ∨ n ∈ names := by
  induction names generalizing s with
  | nil => simp
  | cons name rest ih =>
    rw [List.foldl_cons, ih, mem_insert, List.mem_cons, or_comm (a := n = name), or_assoc]

theorem mem_union {s other : NameSet} {n : String} : n ∈ s.union other ↔ n ∈ s ∨ n ∈ other :=
  mem_foldl_insert

end NameSet

end Bindle
