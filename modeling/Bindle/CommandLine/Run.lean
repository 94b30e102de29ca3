import Bindle.CommandLine.Inspection
import Bindle.CommandLine.Resolving

/-!
# Running the command line

The arguments are read first; if they ask for nothing, no file is read. Then the settings are
loaded, and an error in them ends the run before the command begins. What a run prints is a
function of the arguments, the surroundings and the files.

The model of the whole command line adapter in section 6 of `SPEC_FULL.md`.

Main definitions: `Invocation.run`, `CommandLine.run`, `CommandLine.paths`.
-/

namespace Bindle.CommandLine

/-- The version of the program. -/
def programVersion : String := "0.1.0"

/-- The report on arguments that ask for nothing. -/
def declined : Declined → Report
  | .usage =>
    { err := ["Usage: parcel [OPTIONS] <COMMAND> <INVOICE>"], code := 2 }
  | .version none => .results [s!"parcel {programVersion}"]
  | .version (some command) => .results [s!"parcel-{command.toText} {programVersion}"]

/-- A note on where the project's settings are from. -/
def sourceNote (d : Display) (c : Configuration) : Report :=
  match c.source with
  | some path => d.note ("Using config: " ++ path)
  | none => d.note "No project config found, using defaults"

/-- The report of a command. -/
def runCommand (d : Display) (files : Files) (settings : ResolveSettings) (path : String) :
    Command → Report
  | .check => check d files path
  | .groups => listGroups d files path
  | .graph => listEdges d files path
  | .resolve a => resolve d files settings path a

namespace Invocation

/-- How results are shown: as asked for, or else as the user prefers. -/
def display (i : Invocation) (user : UserSettings) : Display where
  format := i.format.getD user.defaultFormat
  verbose := i.verbose

/-- Runs what a command line asks for. -/
def run (i : Invocation) (environment : Environment) (files : Files) : Report :=
  match Configuration.load files environment i.config with
  | .error causes => .failed causes
  | .ok c =>
    let d := i.display c.user
    sourceNote d c ++
      runCommand d files c.project.resolve i.invoice i.command

/-- The path of the choices, if the command reads any. -/
def choices? (i : Invocation) : Option String :=
  match i.command with
  | .resolve a => a.choices
  | _ => none

/-- All paths that a run may read. -/
def paths (i : Invocation) (environment : Environment) : List String :=
  environment.userFile?.toList ++ i.config.toList ++ [i.invoice] ++ i.choices?.toList ++
    environment.directory.outward.flatMap fun d => [d.below [projectMark], projectFile d]

end Invocation

/-- Runs a command line. -/
def run (environment : Environment) (files : Files) (arguments : List String) : Report :=
  match Invocation.parse environment.configFile arguments with
  | .error reason => declined reason
  | .ok i => i.run environment files

/-- All paths that the run of a command line may read. -/
def paths (environment : Environment) (arguments : List String) : List String :=
  match Invocation.parse environment.configFile arguments with
  | .error _ => []
  | .ok i => i.paths environment

end Bindle.CommandLine
