import Bindle.CommandLine.Documents
import Bindle.Graph.Cycle
import Bindle.Text.Column

/-!
# Commands that look at an invoice

One command checks an invoice and reports all that is wrong with it; two list what its graph holds,
by group or edge by edge. The lists are shown for valid invoices only, and of one that is not the
first violation is named.

The model of `check`, `groups` and `graph` in section 6 of `SPEC_FULL.md`.

Main definitions: `check`, `listGroups`, `listEdges`.
-/

namespace Bindle.CommandLine

/-- The message on an invoice whose graph has a cycle. -/
def invalidGraph (path : String) : String := s!"Invalid group graph in {path}"

/-! ## Checking -/

/-- The report on a valid invoice. -/
def accepted (d : Display) (G : Graph) : Report :=
  let i := G.invoice
  let warning := if i.yanked then ["Warning: this invoice is yanked"] else []
  d.choose
    (.results (s!"OK: {i.name} ({i.groups.length} groups, {i.parcels.length} parcels)" :: warning))
    (.json (.object [("canonical_name", .string i.canonicalName),
      ("groups", .nat i.groups.length), ("invoice", .string i.name),
      ("parcels", .nat i.parcels.length), ("success", .bool true), ("yanked", .bool i.yanked)]))

/-- The report on a draft that is no invoice. -/
def rejected (d : Display) (path : String) (violations : List Violation) : Report :=
  d.choose (.remarks [invalidInvoice path]) {}
    ++ d.errors (violations.map (·.message))
    ++ .failed [s!"{violations.length} schema error(s) in {path}"]

/-- Checks the draft in a file. -/
def checkDraft (d : Display) (path : String) (draft : InvoiceDraft) : Report :=
  match draft.check .collectAll with
  | .error violations => rejected d path violations
  | .ok invoice =>
    match Graph.build invoice with
    | .error e => d.errors [e.message] ++ .failed [invalidGraph path]
    | .ok G => accepted d G

/-- Checks the invoice in a file. -/
def check (d : Display) (files : Files) (path : String) : Report :=
  match InvoiceDraft.load files path with
  | .error causes => .failed causes
  | .ok draft => d.noteOf "check" ("Decoded " ++ path) ++ checkDraft d path draft

/-! ## Listing -/

/-- The graph of the invoice in a file. -/
def loadGraph (files : Files) (path : String) : Except Causes Graph := do
  let invoice ← Invoice.load files path
  (Graph.build invoice).mapError fun e => [invalidGraph path, e.message]

/-- The lines on a group: a row of the table, and who requires it. -/
def groupLines (G : Graph) (g : GroupId) : List String :=
  let required := if G.isRootRequired g then "yes" else "no"
  let requiredBy := G.parcelNames (G.requiredBy g)
  (Text.padRight 20 (G.groupName g) ++ " " ++ Text.padRight 8 (G.policy g).toText ++ " " ++
      Text.padRight 9 required ++ " " ++ Text.commaList (G.parcelNames (G.members g))) ::
    if requiredBy.isEmpty then []
    else [Text.padRight 20 "" ++ " required by: " ++ Text.commaList requiredBy]

/-- The table of groups. -/
def groupTable (G : Graph) : List String :=
  [s!"Groups in {G.invoice.name} ({G.groupCount}):",
    Text.padRight 20 "NAME" ++ " " ++ Text.padRight 8 "POLICY" ++ " " ++
      Text.padRight 9 "REQUIRED" ++ " MEMBERS",
    String.ofList (List.replicate 60 '-')] ++ G.groupIds.flatMap (groupLines G)

/-- A group as an object. -/
def groupJson (G : Graph) (g : GroupId) : Json :=
  .object [("name", .string (G.groupName g)), ("global", .bool g.isGlobal),
    ("policy", .string (G.policy g).toText), ("required", .bool (G.isRootRequired g)),
    ("members", .strings (G.parcelNames (G.members g))),
    ("required_by", .strings (G.parcelNames (G.requiredBy g)))]

/-- Lists the groups of the invoice in a file. -/
def listGroups (d : Display) (files : Files) (path : String) : Report :=
  match loadGraph files path with
  | .error causes => .failed causes
  | .ok G =>
    d.noteOf "groups" s!"{G.groupCount} groups including global" ++
      d.choose (.results (groupTable G)) (.json (.array (G.groupIds.map (groupJson G))))

/-- The line on an edge. -/
def edgeLine (e : Graph.Edge) : String :=
  "\t".intercalate [e.source, e.kind.verb, e.target]

/-- An edge as an object. -/
def edgeJson (e : Graph.Edge) : Json :=
  .object [("from", .string e.source), ("kind", .string e.kind.toText), ("to", .string e.target)]

/-- Lists the edges of the invoice in a file. -/
def listEdges (d : Display) (files : Files) (path : String) : Report :=
  match loadGraph files path with
  | .error causes => .failed causes
  | .ok G =>
    let lines := if G.edges.isEmpty then ["No edges."] else G.edges.map edgeLine
    d.noteOf "graph" s!"{G.edges.length} edges" ++
      d.choose (.results lines) (.json (.array (G.edges.map edgeJson)))

end Bindle.CommandLine
