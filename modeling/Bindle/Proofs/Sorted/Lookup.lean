import Bindle.Sorted.NameSet
import Bindle.Sorted.StringMap
import Mathlib.Data.List.Sort

/-!
# What sorted maps and sets hold

Entries are stored in a map one after the other, so of several entries for one key the last counts;
and of two maps put together, the second. A set is what its members are, in whatever order and how
often they were put in.

* `StringMap.get?_ofList_eq`, `get?_ofList`: what a map made of a list of entries holds.
* `StringMap.lookup_eq_some_iff_mem`: with different keys, an entry is found under its key.
* `StringMap.entries_ofList_perm`, `ofList_entries`: the same, for entries with different keys.
* `StringMap.get?_extend`: what two maps hold together.
* `NameSet.ext`: a set is determined by its members.
-/

namespace Bindle

namespace StringMap

variable {α : Type}

/-! ## Lists of entries -/

theorem get?_foldl_insert (es : List (String × α)) (m : StringMap α) (key : String) :
    (es.foldl (fun acc e => acc.insert e.1 e.2) m).get? key =
      (es.reverse.lookup key).or (m.get? key) := by
  induction es generalizing m with
  | nil => rfl
  | cons e rest ih =>
    obtain ⟨k, v⟩ := e
    rw [List.foldl_cons, ih, get?_insert, List.reverse_cons, List.lookup_append, Option.or_assoc]
    by_cases hkey : key = k
    · simp [hkey]
    · have hne : (key == k) = false := by simpa using hkey
      simp [List.lookup_cons, hne, hkey]

/-- Of several entries for one key the last is stored. -/
theorem get?_ofList_eq (es : List (String × α)) (key : String) :
    (ofList es).get? key = es.reverse.lookup key := by
  rw [ofList, get?_foldl_insert, get?_empty, Option.or_none]

/-- All entries for a key have the value that is stored under it. -/
theorem get?_ofList {es : List (String × α)} {key : String} {value : α}
    (hmem : (key, value) ∈ es) (hall : ∀ e ∈ es, e.1 = key → e.2 = value) :
    (ofList es).get? key = some value := by
  rw [get?_ofList_eq]
  cases hfound : es.reverse.lookup key with
  | none =>
    have hnone := List.lookup_eq_none_iff.1 hfound _ (List.mem_reverse.2 hmem)
    simp at hnone
  | some other =>
    obtain ⟨before, after, hsplit, -⟩ := List.lookup_eq_some_iff.1 hfound
    have hother : (key, other) ∈ es.reverse := by simp [hsplit]
    exact congrArg some (hall _ (List.mem_reverse.1 hother) rfl)

/-! ## Entries with different keys -/

section Distinct

variable {es : List (String × α)} {key : String}

theorem lookup_eq_none_iff_not_mem_keys : es.lookup key = none ↔ key ∉ es.map Prod.fst := by
  rw [List.lookup_eq_none_iff]
  simp only [bne_iff_ne, List.mem_map, not_exists, not_and]
  exact forall₂_congr fun e _ => ne_comm

/-- With different keys, an entry is found under its key. -/
theorem lookup_eq_some_iff_mem (hkeys : (es.map Prod.fst).Nodup) {value : α} :
    es.lookup key = some value ↔ (key, value) ∈ es := by
  rw [List.lookup_eq_some_iff]
  constructor
  · rintro ⟨before, after, rfl, -⟩
    simp
  · intro hmem
    obtain ⟨before, after, rfl⟩ := List.append_of_mem hmem
    refine ⟨before, after, rfl, fun e he => bne_iff_ne.2 ?_⟩
    rw [List.map_append, List.nodup_append] at hkeys
    exact fun heq => hkeys.2.2 _ (List.mem_map_of_mem he) key (by simp) heq.symm

theorem lookup_eq_none_iff_not_mem (hkeys : (es.map Prod.fst).Nodup) :
    es.lookup key = none ↔ ∀ value, (key, value) ∉ es := by
  simp only [← lookup_eq_some_iff_mem hkeys, Option.eq_none_iff_forall_ne_some, ne_eq]

end Distinct

theorem insertEntry_perm {key : String} (value : α) {es : List (String × α)}
    (h : ∀ e ∈ es, e.1 ≠ key) : (insertEntry key value es).Perm ((key, value) :: es) := by
  induction es with
  | nil => exact .refl _
  | cons e rest ih =>
    obtain ⟨k, v⟩ := e
    obtain ⟨hk, hrest⟩ := List.forall_mem_cons.1 h
    rw [insertEntry]
    split
    · exact .refl _
    · rw [if_neg (Ne.symm hk)]
      exact ((ih hrest).cons _).trans (.swap _ _ _)

theorem entries_foldl_insert_perm {es : List (String × α)} {m : StringMap α}
    (h : ((m.entries ++ es).map Prod.fst).Nodup) :
    (es.foldl (fun acc e => acc.insert e.1 e.2) m).entries.Perm (m.entries ++ es) := by
  induction es generalizing m with
  | nil => simp
  | cons e rest ih =>
    have hnew : ∀ f ∈ m.entries, f.1 ≠ e.1 := by
      rw [List.map_append, List.nodup_append] at h
      exact fun f hf => h.2.2 _ (List.mem_map_of_mem hf) _ (by simp)
    have hinsert : ((m.insert e.1 e.2).entries ++ rest).Perm (m.entries ++ e :: rest) :=
      ((insertEntry_perm e.2 hnew).append_right rest).trans List.perm_middle.symm
    exact (ih ((hinsert.map _).nodup_iff.2 h)).trans hinsert

/-- Entries with different keys are all stored, and nothing else is. -/
theorem entries_ofList_perm {es : List (String × α)} (h : (es.map Prod.fst).Nodup) :
    (ofList es).entries.Perm es :=
  entries_foldl_insert_perm (m := empty) h

theorem ext {m other : StringMap α} (h : m.entries = other.entries) : m = other := by
  obtain ⟨es, hes⟩ := m
  obtain ⟨others, hothers⟩ := other
  obtain rfl : es = others := h
  rfl

theorem nodup_keys (m : StringMap α) : (m.entries.map Prod.fst).Nodup :=
  List.pairwise_map.2 (m.ascending.imp fun hlt heq => String.ne_of_lt hlt heq)

/-- A map is the map of its entries. -/
theorem ofList_entries (m : StringMap α) : ofList m.entries = m := by
  have hperm := entries_ofList_perm m.nodup_keys
  exact ext (hperm.eq_of_pairwise
    (fun a b _ _ hab hba => absurd (String.lt_trans hab hba) (String.lt_irrefl _))
    (ofList m.entries).ascending m.ascending)

/-! ## Two maps -/

/-- A map has one entry for a key, which is found from either end. -/
theorem lookup_reverse {es : List (String × α)} (h : es.Pairwise fun a b => a.1 < b.1)
    (key : String) : es.reverse.lookup key = es.lookup key := by
  induction es with
  | nil => rfl
  | cons e rest ih =>
    obtain ⟨k, v⟩ := e
    obtain ⟨hhd, hrest⟩ := List.pairwise_cons.1 h
    rw [List.reverse_cons, List.lookup_append, ih hrest]
    by_cases hkey : key = k
    · subst hkey
      have hnone : rest.lookup key = none := by
        rw [lookup_eq_none_iff_not_mem_keys]
        exact fun hmem => String.lt_irrefl key (List.forall_mem_map.2 hhd key hmem)
      simp [hnone]
    · have hne : (key == k) = false := by simpa using hkey
      simp [List.lookup_cons, hne]

/-- What the second map holds under a key counts before what the first holds. -/
theorem get?_extend (m other : StringMap α) (key : String) :
    (m.extend other).get? key = (other.get? key).or (m.get? key) := by
  rw [extend, get?_foldl_insert, lookup_reverse other.ascending]
  rfl

end StringMap

namespace NameSet

/-- A set is determined by its members. -/
theorem ext {s other : NameSet} (h : ∀ name, name ∈ s ↔ name ∈ other) : s = other := by
  obtain ⟨names, hnames⟩ := s
  obtain ⟨others, hothers⟩ := other
  obtain rfl : names = others := hnames.eq_of_mem_iff hothers h
  rfl

/-- A name that a filter leaves out makes no difference to what it leaves. -/
theorem filter_insert {s : NameSet} {name : String} {f : String → Bool} (h : f name = false) :
    (s.insert name).names.filter f = s.names.filter f := by
  refine ((s.insert name).ascending.filter f).eq_of_mem_iff (s.ascending.filter f) fun n => ?_
  have hmem : n ∈ (s.insert name).names ↔ n = name ∨ n ∈ s.names := mem_insert
  rw [List.mem_filter, List.mem_filter, hmem]
  constructor
  · rintro ⟨rfl | hn, hkept⟩
    · rw [h] at hkept
      cases hkept
    · exact ⟨hn, hkept⟩
  · rintro ⟨hn, hkept⟩
    exact ⟨.inr hn, hkept⟩

end NameSet

end Bindle
