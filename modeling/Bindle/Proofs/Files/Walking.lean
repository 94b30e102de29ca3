import Bindle.Files.Tree
import Mathlib.Data.List.Infix

/-!
# Reading absolute paths

A file tree is read through paths, which are texts: a path is cut at its slashes and walked name by
name, and a walk can fail in several ways. For the absolute path of an entry none of this shows. The
text of such a path is cut into the names that it was made of, and the walk along them meets
directories only, because in a tree nothing lies in a file. So reading the path gives what lies
there; and if nothing does, the path leads to nothing.

* `FileTree.IsEntryName`, `FileTree.IsWellFormed`: the trees that a file system can hold.
* `namesOf_splitSlash_toPath`: the names in an absolute path.
* `walk_of_entry?`, `walk_of_entry?_eq_none`: the walk along the names of a path.
* `IsWellFormed.read_file`, `isDirectory_read_iff`, `has_read_iff`: reading an absolute path.
-/

namespace Bindle

theorem Files.has_of_isDirectory {files : Files} {path : String}
    (h : files.isDirectory path = true) : files.has path = true := by
  unfold isDirectory at h
  split at h
  · rename_i hread
    rw [has, hread]
  · exact absurd h Bool.false_ne_true

/-! ## The text of a path -/

theorem splitSlash_eq_splitOn (cs : List Char) : splitSlash cs = cs.splitOn '/' := by
  induction cs using splitSlash.induct with
  | case1 => rfl
  | case2 rest ih => rw [splitSlash, ih, List.splitOn_cons_eq_if_modifyHead, if_pos (by simp)]
  | case3 c rest hc hnil ih => exact absurd (ih ▸ hnil) (List.splitOn_ne_nil _ _)
  | case4 c rest hc part parts hcons ih =>
    rw [splitSlash, hcons, List.splitOn_cons_eq_if_modifyHead, if_neg (by simpa using hc), ← ih,
      hcons]
    · rfl
    · exact hc

/-- The text of an absolute path begins with a slash. -/
theorem Directory.toList_toPath (d : Directory) :
    (toPath d).toList = '/' :: ['/'].intercalate (d.map String.toList) := by
  rw [toPath, String.toList_append, String.toList_intercalate]
  rfl

/-- The absolute path of a part of a way is no longer than that of the whole. -/
theorem Directory.size_toPath_le {d e : Directory} (h : d <+: e) :
    (toPath d).utf8ByteSize ≤ (toPath e).utf8ByteSize := by
  obtain ⟨names, rfl⟩ := h
  unfold toPath
  rw [String.utf8ByteSize_append, String.utf8ByteSize_append]
  refine Nat.add_le_add_left ?_ _
  by_cases hd : d = []
  · rw [hd, String.intercalate_nil]
    exact Nat.zero_le _
  by_cases hnames : names = []
  · rw [hnames, List.append_nil]
  · rw [String.intercalate_append_of_ne_nil hd hnames, String.utf8ByteSize_append,
      String.utf8ByteSize_append]
    omega

namespace FileTree

/-- A name that an entry of a directory can have. -/
structure IsEntryName (name : String) : Prop where
  ne_empty : name ≠ ""
  no_slash : '/' ∉ name.toList
  ne_dot : name ≠ "."
  ne_dots : name ≠ ".."
  short : name.utf8ByteSize < nameLimit

instance : DecidablePred IsEntryName := fun name =>
  decidable_of_iff (name ≠ "" ∧ '/' ∉ name.toList ∧ name ≠ "." ∧ name ≠ ".." ∧
      name.utf8ByteSize < nameLimit)
    ⟨fun ⟨hempty, hslash, hdot, hdots, hshort⟩ => ⟨hempty, hslash, hdot, hdots, hshort⟩,
      fun h => ⟨h.ne_empty, h.no_slash, h.ne_dot, h.ne_dots, h.short⟩⟩

theorem namesOf_map_toList {names : List String} (h : ∀ name ∈ names, IsEntryName name) :
    namesOf (names.map String.toList) = names := by
  induction names with
  | nil => rfl
  | cons name names ih =>
    have hne : name.toList ≠ [] := fun hnil =>
      (h name List.mem_cons_self).ne_empty (String.toList_eq_nil_iff.1 hnil)
    rw [List.map_cons, namesOf, ih fun n hn => h n (.tail _ hn), String.ofList_toList]
    all_goals simp [hne]

/-- An absolute path is cut into the names that it was made of. -/
theorem namesOf_splitSlash_toPath {path : List String} (hne : path ≠ [])
    (h : ∀ name ∈ path, IsEntryName name) :
    namesOf (splitSlash (Directory.toPath path).toList) = path := by
  have hslash : ∀ part ∈ path.map String.toList, '/' ∉ part := by
    intro part hpart
    obtain ⟨name, hname, rfl⟩ := List.mem_map.1 hpart
    exact (h name hname).no_slash
  have hparts : path.map String.toList ≠ [] := by simpa using hne
  rw [Directory.toList_toPath, splitSlash, splitSlash_eq_splitOn,
    List.splitOn_intercalate '/' hslash hparts]
  obtain ⟨part, parts, hcons⟩ := List.exists_cons_of_ne_nil hparts
  rw [hcons, namesOf, ← hcons, namesOf_map_toList h]
  exact List.cons_ne_nil _ _

/-! ## Trees -/

/-- The paths of all files. -/
def filePaths (t : FileTree) : List (List String) := t.files.map (·.1)

/-- The paths of the entries that a tree lists; the directories on the way to them are not. -/
def paths (t : FileTree) : List (List String) := t.filePaths ++ t.directories

/-- The trees that a file system can hold: entries have names, the absolute path of an entry is not
too long to be used, and nothing lies in a file. -/
structure IsWellFormed (t : FileTree) : Prop where
  named : ∀ path ∈ t.paths, ∀ name ∈ path, IsEntryName name
  short : ∀ path ∈ t.paths, (Directory.toPath path).utf8ByteSize < pathLimit
  apart : ∀ file ∈ t.filePaths, ∀ path ∈ t.paths, file <+: path → file = path

variable {t : FileTree} {path here : List String} {text : String}

theorem hasDirectory_iff :
    t.hasDirectory path = true ↔ path = [] ∨ ∃ q ∈ t.paths, path <+: q := by
  simp only [hasDirectory, paths, filePaths, Bool.or_eq_true, List.isEmpty_iff, List.any_eq_true,
    List.isPrefixOf_iff_prefix, List.mem_append, List.mem_map, or_assoc]
  refine or_congr_right ⟨?_, ?_⟩
  · rintro (⟨q, hq, hon⟩ | ⟨file, hfile, hon⟩)
    · exact ⟨q, .inr hq, hon⟩
    · exact ⟨file.1, .inl ⟨file, hfile, rfl⟩, hon⟩
  · rintro ⟨q, ⟨file, hfile, rfl⟩ | hq, hon⟩
    · exact .inr ⟨file, hfile, hon⟩
    · exact .inl ⟨q, hq, hon⟩

theorem entry?_of_lookup_eq_none (h : t.files.lookup path = none) :
    t.entry? path = if t.hasDirectory path then some .directory else none := by
  unfold entry?
  rw [h]

theorem mem_filePaths_of_lookup (h : t.files.lookup path = some text) : path ∈ t.filePaths := by
  obtain ⟨l, r, hfiles, -⟩ := List.lookup_eq_some_iff.1 h
  rw [filePaths, hfiles]
  simp

/-- Whatever lies at a path lies on the way to something listed, or at the root. -/
theorem exists_mem_paths (h : t.entry? path ≠ none) : path = [] ∨ ∃ q ∈ t.paths, path <+: q := by
  cases hlookup : t.files.lookup path with
  | some text =>
    exact .inr ⟨path, List.mem_append_left _ (mem_filePaths_of_lookup hlookup),
      List.prefix_refl _⟩
  | none =>
    rw [entry?_of_lookup_eq_none hlookup] at h
    exact hasDirectory_iff.1 (by simpa using h)

namespace IsWellFormed

variable (ht : t.IsWellFormed)

include ht

theorem isEntryName (h : t.entry? path ≠ none) : ∀ name ∈ path, IsEntryName name := by
  rcases exists_mem_paths h with rfl | ⟨q, hq, hon⟩
  · exact fun name hname => absurd hname List.not_mem_nil
  · exact fun name hname => ht.named q hq name (hon.subset hname)

/-- What something lies in is a directory. -/
theorem entry?_of_append {names : List String} (hne : names ≠ [])
    (h : t.entry? (path ++ names) ≠ none) : t.entry? path = some .directory := by
  rcases exists_mem_paths h with hnil | ⟨q, hq, hon⟩
  · exact absurd (List.append_eq_nil_iff.1 hnil).2 hne
  have hpath : path <+: q := (List.prefix_append _ _).trans hon
  have hlookup : t.files.lookup path = none := by
    rw [Option.eq_none_iff_forall_ne_some]
    intro text hfile
    obtain rfl : path = q := ht.apart path (mem_filePaths_of_lookup hfile) q hq hpath
    have hlength := hon.length_le
    rw [List.length_append] at hlength
    exact hne (List.length_eq_zero_iff.1 (by omega))
  rw [entry?_of_lookup_eq_none hlookup, if_pos (hasDirectory_iff.2 (.inr ⟨q, hq, hpath⟩))]

end IsWellFormed

/-! ## Walks -/

theorem walk_cons {name : String} (rest : List String) (hname : IsEntryName name)
    (hhere : t.entry? here = some .directory) :
    t.walk here (name :: rest) =
      if (t.entry? (here ++ [name])).isNone then .error .notFound
      else t.walk (here ++ [name]) rest := by
  rw [walk, hhere]
  dsimp only
  rw [if_neg hname.ne_dot, if_neg hname.ne_dots, if_neg (Nat.not_le.2 hname.short)]

/-- A walk along the names of a path leads to what lies there. -/
theorem walk_of_entry? (ht : t.IsWellFormed) {names : List String}
    (h : t.entry? (here ++ names) ≠ none) : t.walk here names = .ok (here ++ names) := by
  induction names generalizing here with
  | nil => rw [walk, List.append_nil]
  | cons name rest ih =>
    have hhere : t.entry? here = some .directory := ht.entry?_of_append (List.cons_ne_nil _ _) h
    have hname : IsEntryName name := ht.isEntryName h name (by simp)
    rw [List.append_cons] at h ⊢
    have hnext : t.entry? (here ++ [name]) ≠ none := by
      cases rest with
      | nil => simpa using h
      | cons => simp [ht.entry?_of_append (List.cons_ne_nil _ _) h]
    rw [walk_cons rest hname hhere, if_neg (by simpa using hnext), ih h]

/-- A walk along the names of a path where nothing lies ends early. -/
theorem walk_of_entry?_eq_none {names : List String} (hne : names ≠ [])
    (hnames : ∀ name ∈ names, IsEntryName name) (h : t.entry? (here ++ names) = none) :
    t.walk here names = .error .notFound ∨ t.walk here names = .error .notADirectory := by
  induction names generalizing here with
  | nil => exact absurd rfl hne
  | cons name rest ih =>
    cases hhere : t.entry? here with
    | none => exact .inl (by rw [walk, hhere])
    | some entry =>
      cases entry with
      | file text => exact .inr (by rw [walk, hhere])
      | directory =>
        rw [walk_cons rest (hnames name List.mem_cons_self) hhere]
        rw [List.append_cons] at h
        by_cases hnext : t.entry? (here ++ [name]) = none
        · exact .inl (by rw [hnext]; rfl)
        · have hrest : rest ≠ [] := by
            rintro rfl
            exact hnext (by simpa using h)
          rw [if_neg (by simpa using hnext)]
          exact ih hrest (fun n hn => hnames n (.tail _ hn)) h

/-! ## Reading -/

theorem IsWellFormed.size_toPath_lt (ht : t.IsWellFormed) (h : t.entry? path ≠ none) :
    (Directory.toPath path).utf8ByteSize < pathLimit := by
  rcases exists_mem_paths h with rfl | ⟨q, hq, hon⟩
  · decide
  · exact Nat.lt_of_le_of_lt (Directory.size_toPath_le hon) (ht.short q hq)

/-- An absolute path is walked from the root, unless it is too long. -/
theorem locate_toPath (hne : path ≠ []) (hnames : ∀ name ∈ path, IsEntryName name) :
    t.locate here (Directory.toPath path) =
      if pathLimit ≤ (Directory.toPath path).utf8ByteSize then .error .nameTooLong
      else t.walk [] path := by
  have hnonempty : Directory.toPath path ≠ "" := by
    rw [Ne, ← String.toList_eq_nil_iff, Directory.toList_toPath]
    exact List.cons_ne_nil _ _
  have hhead : (Directory.toPath path).toList.head? = some '/' := by
    rw [Directory.toList_toPath, List.head?_cons]
  rw [locate, if_neg hnonempty, if_pos hhead, namesOf_splitSlash_toPath hne hnames]

theorem read_of_locate {place : List String} (h : t.locate here text = .ok place) :
    t.read here text =
      match t.entry? place with
      | some (.file text) => .ok text
      | some .directory => .error .isADirectory
      | none => .error .notFound := by
  rw [read, h]
  rfl

namespace IsWellFormed

variable (ht : t.IsWellFormed) (hne : path ≠ [])

include ht hne

theorem locate_toPath (h : t.entry? path ≠ none) :
    t.locate here (Directory.toPath path) = .ok path := by
  rw [FileTree.locate_toPath hne (ht.isEntryName h),
    if_neg (Nat.not_le.2 (ht.size_toPath_lt h)), walk_of_entry? ht (by simpa using h),
    List.nil_append]

theorem read_file (h : t.entry? path = some (.file text)) :
    t.read here (Directory.toPath path) = .ok text := by
  rw [read_of_locate (ht.locate_toPath hne (by simp [h])), h]

theorem read_directory (h : t.entry? path = some .directory) :
    t.read here (Directory.toPath path) = .error .isADirectory := by
  rw [read_of_locate (ht.locate_toPath hne (by simp [h])), h]

end IsWellFormed

section Names

variable (hne : path ≠ []) (hnames : ∀ name ∈ path, IsEntryName name)

include hne hnames

/-- The path of nothing leads to nothing. -/
theorem has_read_eq_false (h : t.entry? path = none) :
    (t.read here).has (Directory.toPath path) = false := by
  have hwalk : t.walk [] path = .error .notFound ∨ t.walk [] path = .error .notADirectory :=
    walk_of_entry?_eq_none hne hnames h
  have hlocate : t.locate here (Directory.toPath path) = .error .nameTooLong ∨
      t.locate here (Directory.toPath path) = t.walk [] path := by
    rw [FileTree.locate_toPath hne hnames]
    split
    · exact .inl rfl
    · exact .inr rfl
  rcases hlocate with h | h
  · rw [Files.has, read, h]
    rfl
  · rcases hwalk with hwalk | hwalk <;>
    · rw [Files.has, read, h, hwalk]
      rfl

theorem has_read_iff (ht : t.IsWellFormed) :
    (t.read here).has (Directory.toPath path) = true ↔ t.entry? path ≠ none := by
  cases h : t.entry? path with
  | none => simp [has_read_eq_false hne hnames h]
  | some entry =>
    cases entry with
    | file text => simp [Files.has, ht.read_file hne h]
    | directory => simp [Files.has, ht.read_directory hne h]

theorem isDirectory_read_iff (ht : t.IsWellFormed) :
    (t.read here).isDirectory (Directory.toPath path) = true ↔
      t.entry? path = some .directory := by
  cases h : t.entry? path with
  | none =>
    have hhas : (t.read here).has (Directory.toPath path) = false := has_read_eq_false hne hnames h
    have hdirectory : (t.read here).isDirectory (Directory.toPath path) ≠ true := fun hdirectory =>
      Bool.noConfusion (hhas.symm.trans (Files.has_of_isDirectory hdirectory))
    simp [hdirectory]
  | some entry =>
    cases entry with
    | file text => simp [Files.isDirectory, ht.read_file hne h]
    | directory => simp [Files.isDirectory, ht.read_directory hne h]

end Names

end FileTree

end Bindle
