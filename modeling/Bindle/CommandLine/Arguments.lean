import Bindle.Resolution.Choice
import Bindle.Settings
import Bindle.Text.Blank

/-!
# Arguments

A command line names one command. Options that every command has may stand before the name or
after it, the others only after it. An option with a value takes it from the same argument, after
an equals sign (or, for a short option, right away), or from the next argument, if that does not
look like an option. After two dashes nothing is an option any more.

Arguments are read from left to right. The value of an option is looked at when the next option or
argument of the same command comes up, or at the end, and a request for the version ends the
reading at once; so whatever is wrong behind such a request goes unnoticed.

The model of the flags and commands in section 6 of `SPEC_FULL.md`.

* `Given`, `Given.set`: what the options of one level say.
* `Reading`, `Reading.token`: the state of reading one level, and how an argument changes it.
* `Invocation`, `Invocation.parse`: what a whole command line asks for.
-/

namespace Bindle.CommandLine

/-! ## Commands and options -/

/-- A command by its name. -/
inductive CommandName where
  | check
  | groups
  | graph
  | resolve
  deriving DecidableEq

namespace CommandName

/-- The name of a command. -/
def toText : CommandName → String
  | .check => "check"
  | .groups => "groups"
  | .graph => "graph"
  | .resolve => "resolve"

/-- The command of that name. -/
def ofText? (text : String) : Option CommandName :=
  if text = "check" then some .check
  else if text = "groups" then some .groups
  else if text = "graph" then some .graph
  else if text = "resolve" then some .resolve
  else none

theorem ofText?_toText (c : CommandName) : ofText? c.toText = some c := by
  cases c <;> decide

end CommandName

/-- An option. -/
inductive OptionName where
  | format
  | verbose
  | config
  | version
  | optIn
  | choose
  | choices
  | anyOf
  | allowYanked
  deriving DecidableEq

namespace OptionName

/-- Whether the option has a value. -/
def takesValue : OptionName → Bool
  | .verbose | .version | .allowYanked => false
  | _ => true

/-- Whether only the command for resolving has the option. -/
def isForResolve : OptionName → Bool
  | .format | .verbose | .config | .version => false
  | _ => true

/-- The option with that long name. -/
def ofLong? (name : String) : Option OptionName :=
  [("format", .format), ("verbose", .verbose), ("config", .config), ("version", .version),
    ("with", .optIn), ("choose", .choose), ("choices", .choices), ("any-of", .anyOf),
    ("allow-yanked", .allowYanked)].lookup name

/-- The option with that letter. -/
def ofShort? (c : Char) : Option OptionName :=
  [('f', .format), ('v', .verbose), ('V', .version)].lookup c

/-- Whether the option may stand behind the name of a command, or in front of it. -/
def isAllowed (o : OptionName) (command : Option CommandName) : Bool :=
  !o.isForResolve || command == some .resolve

end OptionName

/-- Why a command line asks for nothing to be done. -/
inductive Declined where
  /-- It cannot be understood. -/
  | usage
  /-- It asks for the version, in front of a command or behind it. -/
  | version (command : Option CommandName)
  deriving DecidableEq

/-! ## One level -/

/-- What the options in front of a command, or those behind it, say. -/
structure Given where
  format : Option OutputFormat := none
  verbose : Bool := false
  config : Option String := none
  optIn : List String := []
  choose : List (String × String) := []
  choices : Option String := none
  anyOf : Option AnyOfReading := none
  allowYanked : Bool := false
  invoice : Option String := none
  deriving DecidableEq

/-- The characters before the first equals sign, and those after it if there is one. -/
def splitEquals (cs : List Char) : List Char × Option (List Char) :=
  match cs.dropWhile (· ≠ '=') with
  | [] => (cs, none)
  | _ :: rest => (cs.takeWhile (· ≠ '='), some rest)

/-- The group and the parcel that a text names, with an equals sign between them. -/
def parseChoice? (text : String) : Option (String × String) :=
  match splitEquals text.toList with
  | (_, none) => none
  | (group, some parcel) =>
    let group := Text.trim (String.ofList group)
    let parcel := Text.trim (String.ofList parcel)
    if group = "" ∨ parcel = "" then none else some (group, parcel)

/-- The value for an option that may be given once. -/
def setOnce {α : Type} (earlier : Option α) (value : Option α) : Except Declined (Option α) :=
  match earlier, value with
  | none, some a => .ok (some a)
  | _, _ => .error .usage

/-- A path, which is not empty. -/
def path? (text : String) : Option String :=
  if text = "" then none else some text

namespace Given

/-- What is said with the value of one more option. -/
def set (given : Given) (o : OptionName) (value : String) : Except Declined Given :=
  match o with
  | .format => do
    return { given with format := ← setOnce given.format (OutputFormat.ofText? value) }
  | .config => do return { given with config := ← setOnce given.config (path? value) }
  | .choices => do return { given with choices := ← setOnce given.choices (path? value) }
  | .anyOf => do
    return { given with anyOf := ← setOnce given.anyOf (AnyOfReading.ofText? value) }
  | .optIn => .ok { given with optIn := given.optIn ++ [value] }
  | .choose =>
    match parseChoice? value with
    | some choice => .ok { given with choose := given.choose ++ [choice] }
    | none => .error .usage
  | .verbose | .version | .allowYanked => .error .usage

/-- What is said with one more option that has no value. -/
def switchOn (given : Given) (command : Option CommandName) (o : OptionName) :
    Except Declined Given :=
  match o with
  | .verbose => if given.verbose then .error .usage else .ok { given with verbose := true }
  | .allowYanked =>
    if given.allowYanked then .error .usage else .ok { given with allowYanked := true }
  | .version => .error (.version command)
  | _ => .error .usage

end Given

/-- The state of reading one level of arguments. -/
structure Reading where
  command : Option CommandName
  given : Given := {}
  /-- An option whose value was not looked at, or did not come yet. -/
  pending : Option (OptionName × Option String) := none
  /-- Whether two dashes were seen. -/
  escaped : Bool := false
  deriving DecidableEq

namespace Reading

/-- Looks at the value that is pending. -/
def flush (r : Reading) : Except Declined Reading :=
  match r.pending with
  | none => .ok r
  | some (_, none) => .error .usage
  | some (o, some value) => do
    return { r with given := ← r.given.set o value, pending := none }

/-- Takes an option, with the value that stands in the same argument. -/
def option (r : Reading) (o : OptionName) (attached : Option String) :
    Except Declined Reading := do
  if !o.isAllowed r.command then throw .usage
  let r ← r.flush
  match o.takesValue, attached with
  | true, none => return { r with pending := some (o, none) }
  | true, some value => return { r with given := ← r.given.set o value }
  | false, none => return { r with given := ← r.given.switchOn r.command o }
  | false, some _ => throw .usage

/-- Takes an argument with a long name, which comes after two dashes. -/
def long (r : Reading) (cs : List Char) : Except Declined Reading :=
  match splitEquals cs with
  | (name, value) =>
    match OptionName.ofLong? (String.ofList name) with
    | some o => r.option o (value.map String.ofList)
    | none => .error .usage

/-- Takes an argument with letters, which come after one dash; an option with a value takes the
rest of them. -/
def short (r : Reading) : List Char → Except Declined Reading
  | [] => .ok r
  | c :: rest =>
    match OptionName.ofShort? c with
    | none => .error .usage
    | some o =>
      if o.takesValue then
        match rest with
        | [] => r.option o none
        | '=' :: value => r.option o (some (String.ofList value))
        | value => r.option o (some (String.ofList value))
      else do (← r.option o none).short rest

/-- Takes an argument that is no option: the path of the invoice, behind a command. -/
def positional (r : Reading) (text : String) : Except Declined Reading := do
  let r ← r.flush
  match r.command, r.given.invoice, path? text with
  | some _, none, some path => return { r with given := { r.given with invoice := some path } }
  | _, _, _ => throw .usage

/-- Takes an argument that does not look like an option. -/
def plain (r : Reading) (text : String) : Except Declined Reading :=
  match r.pending with
  | some (o, none) => .ok { r with pending := some (o, some text) }
  | _ => r.positional text

/-- Takes one argument. -/
def token (r : Reading) (text : String) : Except Declined Reading :=
  if r.escaped then r.positional text
  else match text.toList with
  | ['-', '-'] => .ok { r with escaped := true }
  | '-' :: '-' :: cs => r.long cs
  | ['-'] => r.plain text
  | '-' :: cs => r.short cs
  | _ => r.plain text

/-- What is said when no argument is left. The path that the environment gives in place of the
option `config` is looked at where the option is not given. -/
def finish (r : Reading) (config : Option String) : Except Declined Given := do
  let r ← r.flush
  if r.given.config.isNone ∧ config = some "" then throw .usage
  return r.given

/-- The command that an argument names, where a command is expected. -/
def command? (r : Reading) (text : String) : Option CommandName :=
  match r.escaped, r.pending with
  | true, _ => none
  | false, some (_, none) => none
  | false, _ => CommandName.ofText? text

end Reading

/-! ## Whole command lines -/

/-- What the arguments behind the name of a command say. -/
def readBehind (config : Option String) (r : Reading) : List String → Except Declined Given
  | [] => r.finish config
  | text :: rest => do readBehind config (← r.token text) rest

/-- What the arguments say in front of the name of a command, the name, and what they say behind
it. -/
def readArguments (config : Option String) (r : Reading) :
    List String → Except Declined (Given × CommandName × Given)
  | [] => .error .usage
  | text :: rest =>
    match r.command? text with
    | some command => do
      let behind ← readBehind config { command := some command } rest
      return (← r.finish config, command, behind)
    | none => do readArguments config (← r.token text) rest

/-- What to resolve an invoice with. -/
structure ResolveArguments where
  optIn : List String
  /-- Choices, of which a later one replaces an earlier one for the same group. -/
  choose : List (String × String)
  /-- The path of a document of choices. -/
  choices : Option String
  anyOf : Option AnyOfReading
  allowYanked : Bool
  deriving DecidableEq

/-- What to do with an invoice. -/
inductive Command where
  | check
  | groups
  | graph
  | resolve (arguments : ResolveArguments)
  deriving DecidableEq

/-- What a command line asks for. -/
structure Invocation where
  command : Command
  /-- The path of the invoice. -/
  invoice : String
  format : Option OutputFormat
  verbose : Bool
  /-- The path of the settings to use in place of the project's. -/
  config : Option String
  deriving DecidableEq

namespace Invocation

/-- The command of that name with what is said behind it. -/
def commandOf (name : CommandName) (given : Given) : Command :=
  match name with
  | .check => .check
  | .groups => .groups
  | .graph => .graph
  | .resolve => .resolve {
      optIn := given.optIn
      choose := given.choose
      choices := given.choices
      anyOf := given.anyOf
      allowYanked := given.allowYanked }

/-- What a command line asks for; `config` is what the environment gives. Of an option that is
given in front of the command and behind it the one behind counts, and any option counts before
the environment. -/
def parse (config : Option String) (arguments : List String) : Except Declined Invocation := do
  let (front, name, behind) ← readArguments config { command := none } arguments
  match behind.invoice with
  | none => throw .usage
  | some invoice =>
    return {
      command := commandOf name behind
      invoice
      format := behind.format.or front.format
      verbose := behind.verbose || front.verbose
      config := behind.config.or (front.config.or config) }

end Invocation

end Bindle.CommandLine
