import Bindle.Proofs.CommandLine.Documents
import Bindle.Proofs.Files.Walking
import Mathlib.Data.List.Induction

/-!
# The project in effect

Without a file named on the command line, the project's settings are those of the nearest project.
The search for it goes outward from the current directory, one directory a round, and ends at the
first project or at the root. So it finds the closest directory with a directory `.parcel` in it;
a file of that name makes no project.

After that nothing farther out is looked at. If the project has no file of settings, the default
ones are in effect, and if its file cannot be used, that is an error: there is no going on with the
search. All that lies outside the project may be changed without any effect on its settings.

* `SearchEnds`: the search, round by round; `searchEnds_iff` says that it always ends, and with
  what.
* `Directory.IsNearest`: the closest directory of a kind; `nearestProject?_eq_some_iff` and
  `nearestProject?_eq_none_iff` say that it is found.
* `FileTree.HasProject`, `FileTree.configuration`: projects and their settings in a file tree.
* `Configuration.load_of_nearest`: the settings in effect.
-/

namespace Bindle

/-! ## Going outward -/

namespace Directory

theorem outward_concat (d : Directory) (name : String) :
    outward (d ++ [name]) = (d ++ [name]) :: outward d := by
  have htake : ∀ n ∈ (List.range (d.length + 1)).reverse, (d ++ [name]).take n = d.take n := by
    intro n hn
    rw [List.mem_reverse, List.mem_range] at hn
    exact List.take_append_of_le_length (Nat.le_of_lt_succ hn)
  unfold outward
  rw [List.length_append, List.length_singleton, List.range_succ, List.reverse_concat,
    List.map_cons, List.map_congr_left htake, List.take_of_length_le (by simp)]

theorem mem_outward_iff {d e : Directory} : e ∈ outward d ↔ e <+: d := by
  simp only [outward, List.mem_map, List.mem_reverse, List.mem_range]
  constructor
  · rintro ⟨n, -, rfl⟩
    exact List.take_prefix n d
  · intro h
    exact ⟨e.length, Nat.lt_succ_of_le h.length_le, (List.prefix_iff_eq_take.1 h).symm⟩

/-- The closest directory of a kind, among a directory and those around it. -/
structure IsNearest (P : Directory → Prop) (start d : Directory) : Prop where
  around : d <+: start
  holds : P d
  closest : ∀ e, e <+: start → P e → e <+: d

variable {P Q : Directory → Prop} {start d : Directory} {name : String}

theorem isNearest_congr (h : ∀ e, e <+: start → (P e ↔ Q e)) :
    IsNearest P start d ↔ IsNearest Q start d := by
  constructor
  · intro ⟨haround, hholds, hclosest⟩
    exact ⟨haround, (h d haround).1 hholds, fun e he hQ => hclosest e he ((h e he).2 hQ)⟩
  · intro ⟨haround, hholds, hclosest⟩
    exact ⟨haround, (h d haround).2 hholds, fun e he hP => hclosest e he ((h e he).1 hP)⟩

/-- A directory of the kind is itself the closest one. -/
theorem isNearest_self_iff (h : P start) : IsNearest P start d ↔ d = start := by
  constructor
  · intro hd
    exact hd.around.eq_of_length_le (hd.closest start (List.prefix_refl _) h).length_le
  · rintro rfl
    exact ⟨List.prefix_refl _, h, fun e he _ => he⟩

/-- From a directory that is not of the kind the search goes on around it. -/
theorem isNearest_concat_iff (h : ¬P (start ++ [name])) :
    IsNearest P (start ++ [name]) d ↔ IsNearest P start d := by
  have hon : ∀ e, P e → (e <+: start ++ [name] ↔ e <+: start) := by
    intro e he
    rw [List.prefix_concat_iff, or_iff_right]
    rintro rfl
    exact h he
  constructor
  · intro ⟨haround, hholds, hclosest⟩
    exact ⟨(hon d hholds).1 haround, hholds, fun e he hP =>
      hclosest e ((hon e hP).2 he) hP⟩
  · intro ⟨haround, hholds, hclosest⟩
    exact ⟨(hon d hholds).2 haround, hholds, fun e he hP =>
      hclosest e ((hon e hP).1 he) hP⟩

end Directory

/-! ## The search -/

section Search

variable {files : Files} {start root : Directory} {result : Option Directory} {rounds : Nat}

/-- A search outward from a directory ends after some rounds. It stops at a project, leaves a
directory that is none for the one around it, and gives up when there is none around it. -/
inductive SearchEnds (files : Files) : Directory → Nat → Option Directory → Prop
  | found {d : Directory} (h : isProject files d = true) : SearchEnds files d 0 (some d)
  | outward {d : Directory} {name : String} {rounds : Nat} {result : Option Directory}
      (h : isProject files (d ++ [name]) = false) (hrest : SearchEnds files d rounds result) :
      SearchEnds files (d ++ [name]) (rounds + 1) result
  | nowhere (h : isProject files [] = false) : SearchEnds files [] 0 none

theorem nearestProject?_of_isProject (h : isProject files start = true) :
    nearestProject? files start = some start := by
  rcases List.eq_nil_or_concat' start with rfl | ⟨d, name, rfl⟩
  · exact List.find?_cons_of_pos h
  · rw [nearestProject?, Directory.outward_concat, List.find?_cons_of_pos h]

theorem nearestProject?_concat {d : Directory} {name : String}
    (h : isProject files (d ++ [name]) = false) :
    nearestProject? files (d ++ [name]) = nearestProject? files d := by
  rw [nearestProject?, Directory.outward_concat, List.find?_cons_of_neg (by simp [h])]
  rfl

theorem nearestProject?_nil (h : isProject files [] = false) :
    nearestProject? files [] = none :=
  List.find?_cons_of_neg (by simp [h])

theorem SearchEnds.nearestProject?_eq (h : SearchEnds files start rounds result) :
    nearestProject? files start = result := by
  induction h with
  | found h => exact nearestProject?_of_isProject h
  | outward h _ ih => rw [nearestProject?_concat h, ih]
  | nowhere h => exact nearestProject?_nil h

/-- The search ends after no more rounds than there are directories around. -/
theorem exists_searchEnds (files : Files) (start : Directory) :
    ∃ rounds ≤ start.length, SearchEnds files start rounds (nearestProject? files start) := by
  induction start using List.reverseRecOn with
  | nil =>
    cases h : isProject files [] with
    | true => exact ⟨0, Nat.le_refl _, nearestProject?_of_isProject h ▸ .found h⟩
    | false => exact ⟨0, Nat.le_refl _, nearestProject?_nil h ▸ .nowhere h⟩
  | append_singleton d name ih =>
    cases h : isProject files (d ++ [name]) with
    | true => exact ⟨0, Nat.zero_le _, nearestProject?_of_isProject h ▸ .found h⟩
    | false =>
      obtain ⟨rounds, hrounds, hends⟩ := ih
      refine ⟨rounds + 1, by simpa using hrounds, ?_⟩
      rw [nearestProject?_concat h]
      exact .outward h hends

/-- The search always ends, and with the nearest project. -/
theorem searchEnds_iff :
    (∃ rounds ≤ start.length, SearchEnds files start rounds result) ↔
      nearestProject? files start = result := by
  constructor
  · rintro ⟨rounds, -, h⟩
    exact h.nearestProject?_eq
  · rintro rfl
    exact exists_searchEnds files start

theorem nearestProject?_eq_some_iff :
    nearestProject? files start = some root ↔
      Directory.IsNearest (isProject files · = true) start root := by
  induction start using List.reverseRecOn with
  | nil =>
    cases h : isProject files [] with
    | true =>
      rw [nearestProject?_of_isProject h, Directory.isNearest_self_iff h, Option.some_inj, eq_comm]
    | false =>
      rw [nearestProject?_nil h]
      refine iff_of_false (by simp) fun hroot => ?_
      have hnil : root = [] := List.prefix_nil.1 hroot.around
      exact Bool.false_ne_true (h.symm.trans (hnil ▸ hroot.holds))
  | append_singleton d name ih =>
    cases h : isProject files (d ++ [name]) with
    | true =>
      rw [nearestProject?_of_isProject h, Directory.isNearest_self_iff h, Option.some_inj, eq_comm]
    | false =>
      rw [nearestProject?_concat h, Directory.isNearest_concat_iff (by simp [h]), ih]

theorem nearestProject?_eq_none_iff :
    nearestProject? files start = none ↔ ∀ d, d <+: start → isProject files d = false := by
  simp only [nearestProject?, List.find?_eq_none, Directory.mem_outward_iff, Bool.not_eq_true]

end Search

/-! ## Projects in a file tree -/

namespace FileTree

variable {t u : FileTree} {here start d root : Directory} {user : UserSettings}

/-- The directory has a directory in it that makes it a project. -/
def HasProject (t : FileTree) (d : Directory) : Prop :=
  t.entry? (d ++ [projectMark]) = some .directory

/-- The settings in effect in a project: those in its file, or the default ones if nothing lies in
the place of that file. -/
def configuration (t : FileTree) (user : UserSettings) (root : Directory) :
    Except Causes Configuration :=
  match t.entry? (root ++ [projectMark, "config.toml"]) with
  | none => .ok { user }
  | some .directory =>
    .error [s!"Failed to read project config: {projectFile root}", FileError.isADirectory.message]
  | some (.file text) =>
    match ProjectSettings.parse? text with
    | some project => .ok { project, user, source := some (projectFile root) }
    | none => .error [s!"Failed to parse project config: {projectFile root}", settingsMessage]

theorem isProject_read_iff (ht : t.IsWellFormed) (hd : ∀ name ∈ d, IsEntryName name) :
    isProject (t.read here) d = true ↔ t.HasProject d :=
  isDirectory_read_iff (by simp) (List.forall_mem_append.2 ⟨hd, by decide⟩) ht

theorem nearestProject?_read_eq_some_iff (ht : t.IsWellFormed)
    (hstart : t.entry? start = some .directory) :
    nearestProject? (t.read here) start = some root ↔
      Directory.IsNearest t.HasProject start root := by
  have hnames : ∀ name ∈ start, IsEntryName name := ht.isEntryName (by simp [hstart])
  rw [nearestProject?_eq_some_iff]
  exact Directory.isNearest_congr fun d hd =>
    isProject_read_iff ht fun name hname => hnames name (hd.subset hname)

theorem nearestProject?_read_eq_none_iff (ht : t.IsWellFormed)
    (hstart : t.entry? start = some .directory) :
    nearestProject? (t.read here) start = none ↔ ∀ d, d <+: start → ¬t.HasProject d := by
  have hnames : ∀ name ∈ start, IsEntryName name := ht.isEntryName (by simp [hstart])
  rw [nearestProject?_eq_none_iff]
  refine forall₂_congr fun d hd => ?_
  rw [← isProject_read_iff ht fun name hname => hnames name (hd.subset hname),
    Bool.not_eq_true]

/-- Trees that are the same from the nearest project inward have the same nearest project. -/
theorem isNearest_of_agree (h : Directory.IsNearest t.HasProject start root)
    (hagree : ∀ names, u.entry? (root ++ names) = t.entry? (root ++ names)) :
    Directory.IsNearest u.HasProject start root where
  around := h.around
  holds := (hagree _).trans h.holds
  closest := by
    intro e he hproject
    -- A directory on the way that is not around the root lies inside of it.
    rcases List.prefix_or_prefix_of_prefix he h.around with haround | ⟨names, rfl⟩
    · exact haround
    · refine h.closest _ he ?_
      unfold HasProject at hproject ⊢
      rwa [List.append_assoc, ← hagree, ← List.append_assoc]

theorem configuration_congr
    (hagree : ∀ names, u.entry? (root ++ names) = t.entry? (root ++ names)) :
    u.configuration user root = t.configuration user root := by
  unfold configuration
  rw [hagree]

end FileTree

/-! ## The settings in effect -/

namespace Configuration

variable {files : Files} {environment : Environment} {named : Option String} {user : UserSettings}
  {t : FileTree} {root : Directory}

theorem source?_of_nearestProject? {directory : Directory}
    (h : nearestProject? files directory = some root) :
    source? files directory none =
      if files.has (projectFile root) then some (projectFile root) else none := by
  rw [source?, h]
  exact Option.filter_some

theorem load_eq_of_nearestProject?_eq_none
    (h : nearestProject? files environment.directory = none) :
    load files environment none =
      (UserSettings.load files environment.userFile?).map fun user => { user } := by
  refine load_of_source?_eq_none ?_
  rw [source?, h]
  rfl

/-- In a project the settings in effect are its own. -/
theorem load_eq_configuration (ht : t.IsWellFormed)
    (hstart : t.entry? environment.directory = some .directory)
    (hroot : nearestProject? (t.read environment.directory) environment.directory = some root) :
    load (t.read environment.directory) environment none =
      (UserSettings.load (t.read environment.directory) environment.userFile?).bind
        (t.configuration · root) := by
  have haround : root <+: environment.directory := (nearestProject?_eq_some_iff.1 hroot).around
  have hnames : ∀ name ∈ root ++ [projectMark, "config.toml"], FileTree.IsEntryName name :=
    List.forall_mem_append.2 ⟨fun name hname =>
      ht.isEntryName (by simp [hstart]) name (haround.subset hname), by decide⟩
  have hne : root ++ [projectMark, "config.toml"] ≠ [] := by simp
  have hhas : (t.read environment.directory).has (projectFile root) = true ↔ _ :=
    FileTree.has_read_iff hne hnames ht
  have hsource := source?_of_nearestProject? hroot
  unfold FileTree.configuration
  cases hentry : t.entry? (root ++ [projectMark, "config.toml"]) with
  | none =>
    rw [if_neg (by simp [hhas, hentry])] at hsource
    exact load_of_source?_eq_none hsource
  | some entry =>
    rw [if_pos (by simp [hhas, hentry])] at hsource
    rw [load_of_source?_eq_some hsource]
    refine congrArg _ (funext fun user => ?_)
    cases entry with
    | directory =>
      have hread : t.read environment.directory (projectFile root) = .error .isADirectory :=
        ht.read_directory hne hentry
      rw [ProjectSettings.load, hread]
      rfl
    | file text =>
      have hread : t.read environment.directory (projectFile root) = .ok text :=
        ht.read_file hne hentry
      rw [ProjectSettings.load, hread]
      dsimp only
      cases ProjectSettings.parse? text <;> rfl

/-- **The settings in effect are those of the nearest project.** The search outward from the current
directory always ends, after no more rounds than there are directories around it. What it finds is
the closest one with a directory `.parcel` in it, and it finds nothing just if there is none; then
the default settings are in effect. In a project its own file is read, or the default settings are
in effect if it has none. Whatever lies outside of the project may be another: the settings, and the
error if its file cannot be used, are the same. -/
theorem load_of_nearest (ht : t.IsWellFormed)
    (hstart : t.entry? environment.directory = some .directory) :
    let start := environment.directory
    let files := t.read start
    let loadUser (u : FileTree) := UserSettings.load (u.read start) environment.userFile?
    (∀ result, nearestProject? files start = result ↔
      ∃ rounds ≤ start.length, SearchEnds files start rounds result) ∧
    (∀ root, nearestProject? files start = some root ↔
      Directory.IsNearest t.HasProject start root) ∧
    (nearestProject? files start = none ↔ ∀ d, d <+: start → ¬t.HasProject d) ∧
    (nearestProject? files start = none →
      load files environment none = (loadUser t).map fun user => { user }) ∧
    ∀ root, nearestProject? files start = some root →
      load files environment none = (loadUser t).bind (t.configuration · root) ∧
      ∀ u : FileTree, u.IsWellFormed →
        (∀ names, u.entry? (root ++ names) = t.entry? (root ++ names)) →
        loadUser u = loadUser t →
        load (u.read start) environment none = load files environment none := by
  intro start files loadUser
  refine ⟨fun result => searchEnds_iff.symm,
    fun root => FileTree.nearestProject?_read_eq_some_iff ht hstart,
    FileTree.nearestProject?_read_eq_none_iff ht hstart,
    load_eq_of_nearestProject?_eq_none, fun root hroot => ?_⟩
  have hload : load files environment none = (loadUser t).bind (t.configuration · root) :=
    load_eq_configuration ht hstart hroot
  refine ⟨hload, fun u hu hagree huser => ?_⟩
  have hnear : Directory.IsNearest t.HasProject start root :=
    (FileTree.nearestProject?_read_eq_some_iff ht hstart).1 hroot
  have hstart' : u.entry? start = some .directory := by
    obtain ⟨names, hnames⟩ := hnear.around
    rw [← hnames, hagree, hnames]
    exact hstart
  have hroot' : nearestProject? (u.read start) start = some root :=
    (FileTree.nearestProject?_read_eq_some_iff hu hstart').2
      (FileTree.isNearest_of_agree hnear hagree)
  have hload' : load (u.read start) environment none =
      (loadUser u).bind (u.configuration · root) := load_eq_configuration hu hstart' hroot'
  rw [hload', hload, huser]
  simp only [FileTree.configuration_congr hagree]

end Configuration

/-! ## A project without settings, in one that has some -/

namespace Worked

/-- A project with settings. In it lies one without, and in that a file with the name that makes
directories projects. -/
def projects (settings : String) : FileTree where
  files := [(["work", ".parcel", "config.toml"], settings),
    (["work", "app", ".parcel", "notes"], ""), (["work", "app", "src", ".parcel"], "")]
  directories := [["work", "app", ".parcel"]]

def inSource : Environment := ⟨["work", "app", "src"], some "/home", none, none⟩

theorem isWellFormed_projects (settings : String) : (projects settings).IsWellFormed where
  named := show ∀ path ∈ (projects "").paths, _ by decide +kernel
  short := show ∀ path ∈ (projects "").paths, _ by decide +kernel
  apart := show ∀ file ∈ (projects "").filePaths, ∀ path ∈ (projects "").paths, _ by
    decide +kernel

/-- What lies in the inner project does not hang on the settings of the outer one. -/
theorem entry?_projects (settings other : String) (names : List String) :
    FileTree.entry? (projects settings) (["work", "app"] ++ names) =
      FileTree.entry? (projects other) (["work", "app"] ++ names) := by
  have hlookup : ∀ settings, (projects settings).files.lookup (["work", "app"] ++ names) =
      (projects settings).files.tail.lookup (["work", "app"] ++ names) := fun settings => rfl
  unfold FileTree.entry?
  rw [hlookup, hlookup other]
  rfl

/-- From the innermost directory the project around it is found, in spite of the file there. It has
no settings of its own, and what the project farther out sets has no say, whether it can be read or
not. -/
theorem load_projects :
    Directory.IsNearest (projects "resolve.allow_yanked = true").HasProject inSource.directory
        ["work", "app"] ∧
      Configuration.load ((projects "resolve.allow_yanked = true").read inSource.directory)
        inSource none = .ok {} ∧
      Configuration.load ((projects "unreadable").read inSource.directory) inSource none =
        .ok {} := by
  have hstart : FileTree.entry? (projects "resolve.allow_yanked = true") inSource.directory =
      some .directory := by decide +kernel
  obtain ⟨-, hnearest, -, -, hproject⟩ :=
    Configuration.load_of_nearest (isWellFormed_projects "resolve.allow_yanked = true") hstart
  have hroot : nearestProject? ((projects "resolve.allow_yanked = true").read inSource.directory)
      inSource.directory = some ["work", "app"] := by decide +kernel
  obtain ⟨hload, hagree⟩ := hproject _ hroot
  have hsettings : Configuration.load
      ((projects "resolve.allow_yanked = true").read inSource.directory) inSource none =
        .ok {} := by
    rw [hload]
    decide +kernel
  refine ⟨(hnearest _).1 hroot, hsettings, ?_⟩
  rw [← hsettings]
  exact hagree (projects "unreadable") (isWellFormed_projects _) (entry?_projects _ _)
    (by decide +kernel)

end Worked

end Bindle
