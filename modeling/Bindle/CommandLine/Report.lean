import Bindle.Json.Printer
import Bindle.Settings

/-!
# What a command prints

A command prints lines on two channels, results on one and everything else on the other, and ends
well or not. When it does not end well, the last line says why: the message of the error, then
that of its cause, and so on.

Results are shown as text or as JSON. As JSON they are one line, and nothing else is printed on
that channel.

The model of output and exit codes in sections 6 and 10.2 of `SPEC_FULL.md`.

* `Report`: the lines and the exit code; one report follows another by `++`.
* `Causes`, `Report.failed`: why something did not end well.
* `Display`: how results are shown, and whether notes are.
-/

namespace Bindle

/-- The lines on both channels, and the exit code. -/
structure Report where
  out : List String := []
  err : List String := []
  code : Nat := 0
  deriving DecidableEq

/-- The message of an error, that of its cause, and so on. -/
abbrev Causes := List String

namespace Report

/-- One report after another; the exit code is that of the second. -/
def append (first second : Report) : Report where
  out := first.out ++ second.out
  err := first.err ++ second.err
  code := second.code

instance : Append Report := ⟨append⟩

/-- Lines of results. -/
def results (lines : List String) : Report := { out := lines }

/-- Lines on the other channel. -/
def remarks (lines : List String) : Report := { err := lines }

/-- A value as the result. -/
def json (j : Json) : Report := results [j.toText]

/-- The end of a command that did not end well. -/
def failed (causes : Causes) : Report where
  err := ["Error: " ++ ": ".intercalate causes]
  code := 1

/-- The text of lines, each with a line ending. -/
def textOf (lines : List String) : String :=
  String.join (lines.map (· ++ "\n"))

end Report

/-- How results are shown, and whether notes on the way are. -/
structure Display where
  format : OutputFormat
  verbose : Bool
  deriving DecidableEq

namespace Display

/-- A note on the way. -/
def note (d : Display) (message : String) : Report :=
  if d.verbose then .remarks ["[verbose] " ++ message] else {}

/-- A note of a command on the way. -/
def noteOf (d : Display) (command message : String) : Report :=
  if d.verbose then .remarks [s!"[verbose:{command}] " ++ message] else {}

/-- One of two reports. -/
def choose (d : Display) (text json : Report) : Report :=
  match d.format with
  | .text => text
  | .json => json

/-- A list of messages on what is wrong: remarks in a text, and the result in JSON. -/
def errors (d : Display) (messages : List String) : Report :=
  d.choose (.remarks (messages.map ("  - " ++ ·)))
    (.json (.object [("errors", .strings messages), ("success", .bool false)]))

end Display

end Bindle
