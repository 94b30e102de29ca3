import Bindle.CommandLine.Report
import Bindle.Files.Reading

/-!
# Configuration

The settings in effect come from two files. The user's file lies in the directory for
configuration that the environment names. The project's file is the one named on the command line;
without such a name it is that of the nearest project, the closest directory around the current
one that has a directory `.parcel` in it. A project without a file, and no project at all, have
the default settings; no project farther out is looked at.

The model of the configuration in section 10.3 of `SPEC_FULL.md`.

* `Environment`: what is known of the surroundings.
* `nearestProject?`: the nearest project.
* `Configuration`, `Configuration.load`: the settings in effect.
-/

namespace Bindle

/-- The surroundings of a command. -/
structure Environment where
  /-- The current directory. -/
  directory : Directory
  /-- The user's home directory. -/
  home : Option String
  /-- The directory for configuration, if it is not the usual one. -/
  configHome : Option String
  /-- The path of the settings to use in place of the project's. -/
  configFile : Option String
  deriving DecidableEq

/-- The path of the user's settings. Only an absolute path names a directory for configuration. -/
def Environment.userFile? (e : Environment) : Option String :=
  let usual := e.home.map (· ++ "/.config")
  let directory := match e.configHome with
    | some path => if path.toList.head? = some '/' then some path else usual
    | none => usual
  directory.map (· ++ "/parcel-resolver/config.toml")

/-! ## Projects -/

/-- The name of the directory that makes its surroundings a project. -/
def projectMark : String := ".parcel"

/-- Whether a directory is a project. -/
def isProject (files : Files) (d : Directory) : Bool :=
  files.isDirectory (d.below [projectMark])

/-- The first of a directory and those around it that is a project. -/
def nearestProject? (files : Files) (d : Directory) : Option Directory :=
  d.outward.find? (isProject files)

/-- The path of a project's settings. -/
def projectFile (d : Directory) : String :=
  d.below [projectMark, "config.toml"]

/-! ## Loading -/

/-- The settings in effect. -/
structure Configuration where
  project : ProjectSettings := {}
  user : UserSettings := {}
  /-- The file that the project's settings are from. -/
  source : Option String := none
  deriving DecidableEq

/-- The message on a file of settings that holds none. -/
def settingsMessage : String := "Failed to parse configuration: " ++ Toml.parseErrorText

/-- The user's settings, the default ones if there is no file. -/
def UserSettings.load (files : Files) (path : Option String) : Except Causes UserSettings :=
  match path with
  | none => .ok {}
  | some path =>
    if files.has path then
      match files path with
      | .error e => .error [s!"Failed to read global config: {path}", e.message]
      | .ok text =>
        match UserSettings.parse? text with
        | some settings => .ok settings
        | none => .error ["Failed to parse global config", settingsMessage]
    else .ok {}

/-- The project's settings in a file. -/
def ProjectSettings.load (files : Files) (path : String) : Except Causes ProjectSettings :=
  match files path with
  | .error e => .error [s!"Failed to read project config: {path}", e.message]
  | .ok text =>
    match ProjectSettings.parse? text with
    | some settings => .ok settings
    | none => .error [s!"Failed to parse project config: {path}", settingsMessage]

namespace Configuration

/-- The file of the project's settings: the one named, or that of the nearest project, if it has
one. -/
def source? (files : Files) (directory : Directory) (named : Option String) : Option String :=
  match named with
  | some path => some path
  | none => ((nearestProject? files directory).map projectFile).filter files.has

/-- The settings in effect; `named` is the file to use in place of the project's. -/
def load (files : Files) (environment : Environment) (named : Option String) :
    Except Causes Configuration := do
  let user ← UserSettings.load files environment.userFile?
  match source? files environment.directory named with
  | none => return { user }
  | some path => return { project := ← ProjectSettings.load files path, user, source := some path }

end Configuration

end Bindle
