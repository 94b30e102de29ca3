/-!
# Maps with text keys

Annotations, features and recorded choices are maps from text to text. A map is kept as the list
of its entries in ascending order of their keys (by code point, which is also the order of their
UTF-8 bytes), each key once. So two maps with the same entries are equal, and a map is printed in
the order of its keys.

Main definitions: `StringMap`, `get?`, `insert`, `extend`, `ofList`.
-/

namespace Bindle

/-- A finite map from texts, as its entries in ascending order of the keys. -/
structure StringMap (α : Type) where
  entries : List (String × α)
  ascending : entries.Pairwise fun a b => a.1 < b.1
  deriving DecidableEq

namespace StringMap

variable {α : Type}

/-- The map without entries. -/
def empty : StringMap α := ⟨[], .nil⟩

instance : Inhabited (StringMap α) := ⟨empty⟩

/-- Whether there is no entry. -/
def isEmpty (m : StringMap α) : Bool := m.entries.isEmpty

/-- The number of entries. -/
def size (m : StringMap α) : Nat := m.entries.length

/-- The value stored under a key. -/
def get? (m : StringMap α) (key : String) : Option α := m.entries.lookup key

/-- The entries with `key` set to `value`, in order. -/
def insertEntry (key : String) (value : α) : List (String × α) → List (String × α)
  | [] => [(key, value)]
  | (k, v) :: rest =>
    if key < k then (key, value) :: (k, v) :: rest
    else if key = k then (key, value) :: rest
    else (k, v) :: insertEntry key value rest

theorem mem_insertEntry {key : String} {value : α} {e : String × α} {es : List (String × α)}
    (h : e ∈ insertEntry key value es) : e = (key, value) ∨ e ∈ es := by
  induction es with
  | nil => simpa [insertEntry] using h
  | cons hd tl ih =>
    rw [insertEntry] at h
    split at h
    · simpa using h
    · split at h
      · rcases List.mem_cons.1 h with h | h
        · exact .inl h
        · exact .inr (List.mem_cons_of_mem _ h)
      · rcases List.mem_cons.1 h with h | h
        · exact .inr (h ▸ List.mem_cons_self)
        · exact (ih h).imp_right (List.mem_cons_of_mem _)

theorem insertEntry_ascending (key : String) (value : α) {es : List (String × α)}
    (h : es.Pairwise fun a b => a.1 < b.1) :
    (insertEntry key value es).Pairwise fun a b => a.1 < b.1 := by
  induction es with
  | nil => simp [insertEntry]
  | cons hd tl ih =>
    obtain ⟨hhd, htl⟩ := List.pairwise_cons.1 h
    rw [insertEntry]
    split
    · rename_i hlt
      refine List.pairwise_cons.2 ⟨fun e he => ?_, h⟩
      rcases List.mem_cons.1 he with rfl | he
      · exact hlt
      · exact String.lt_trans hlt (hhd e he)
    · rename_i hlt
      split
      · rename_i heq
        exact List.pairwise_cons.2 ⟨fun e he => by simpa [heq] using hhd e he, htl⟩
      · rename_i hne
        refine List.pairwise_cons.2 ⟨fun e he => ?_, ih htl⟩
        rcases mem_insertEntry he with rfl | he
        · exact String.not_le.1 fun hle => hne (String.le_antisymm hle (String.not_lt.1 hlt))
        · exact hhd e he

/-- The map with `key` set to `value`, whatever it held before. -/
def insert (m : StringMap α) (key : String) (value : α) : StringMap α :=
  ⟨insertEntry key value m.entries, insertEntry_ascending key value m.ascending⟩

/-- Both maps together; where they differ on a key, `other` wins. -/
def extend (m other : StringMap α) : StringMap α :=
  other.entries.foldl (fun acc e => acc.insert e.1 e.2) m

/-- The map of a list of entries; of several entries for one key the last wins. -/
def ofList (es : List (String × α)) : StringMap α :=
  es.foldl (fun acc e => acc.insert e.1 e.2) empty

/-! ## Looking up -/

theorem get?_empty (key : String) : (empty : StringMap α).get? key = none := rfl

theorem get?_insert (m : StringMap α) (key other : String) (value : α) :
    (m.insert key value).get? other = if other = key then some value else m.get? other := by
  obtain ⟨es, hes⟩ := m
  show List.lookup other (insertEntry key value es) = _
  show _ = if other = key then some value else List.lookup other es
  clear hes
  induction es with
  | nil =>
    by_cases h : other = key
    · simp [insertEntry, h]
    · have : (other == key) = false := by simpa using h
      simp [insertEntry, List.lookup_cons, this, h]
  | cons hd tl ih =>
    obtain ⟨k, v⟩ := hd
    rw [insertEntry]
    split
    · by_cases h : other = key
      · simp [h]
      · have : (other == key) = false := by simpa using h
        simp [List.lookup_cons, this, h]
    · split
      · rename_i heq
        subst heq
        by_cases h : other = key
        · simp [h]
        · have : (other == key) = false := by simpa using h
          simp [List.lookup_cons, this, h]
      · rename_i hne
        by_cases h : other = k
        · subst h
          simp [Ne.symm hne]
        · have hk : (other == k) = false := by simpa using h
          rw [List.lookup_cons, hk, ih, List.lookup_cons, hk]

theorem get?_insert_self (m : StringMap α) (key : String) (value : α) :
    (m.insert key value).get? key = some value := by
  simp [get?_insert]

end StringMap

end Bindle
