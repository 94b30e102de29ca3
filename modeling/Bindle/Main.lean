import Bindle.CommandLine.Run

/-!
# The program

Reads the files that the command line may need, runs it, and prints what it reports. Everything
that decides anything is in `CommandLine.run`.
-/

namespace Bindle

/-- The reason in an error of the operating system. -/
def fileErrorOf : IO.Error → FileError
  | .noFileOrDirectory _ _ _ => .notFound
  | .inappropriateType _ 21 _ => .isADirectory
  | .inappropriateType _ _ _ => .notADirectory
  | .permissionDenied _ _ _ => .other "Permission denied (os error 13)"
  | .invalidArgument _ _ "name too long" => .nameTooLong
  | .userError _ => .other "stream did not contain valid UTF-8"
  | e => .other (toString e)

/-- What reading a path gives. -/
def readPath (path : String) : IO (Except FileError String) := do
  try
    return .ok (← IO.FS.readFile path)
  catch e =>
    return .error (fileErrorOf e)

/-- What reading each of the given paths gives; nothing is at any other path. -/
def readPaths (paths : List String) : IO Files := do
  let found ← paths.mapM fun path => do return (path, ← readPath path)
  return fun path => (found.lookup path).getD (.error .notFound)

/-- The surroundings of this process. -/
def readEnvironment : IO Environment := do
  return {
    directory := .ofPath (toString (← IO.currentDir))
    home := ← IO.getEnv "HOME"
    configHome := ← IO.getEnv "XDG_CONFIG_HOME"
    configFile := ← IO.getEnv "PARCEL_CONFIG" }

end Bindle

/-- Runs the command line. -/
def main (arguments : List String) : IO UInt32 := do
  let environment ← Bindle.readEnvironment
  let files ← Bindle.readPaths (Bindle.CommandLine.paths environment arguments)
  let report := Bindle.CommandLine.run environment files arguments
  IO.eprint (Bindle.Report.textOf report.err)
  IO.print (Bindle.Report.textOf report.out)
  return .ofNat report.code
