import Bindle.CommandLine.Arguments
import Bindle.CommandLine.Configuration
import Bindle.CommandLine.Documents
import Bindle.CommandLine.Inspection
import Bindle.CommandLine.Report
import Bindle.CommandLine.Resolving
import Bindle.CommandLine.Run
import Bindle.Digest.Blake3
import Bindle.Document
import Bindle.Draft.Basic
import Bindle.Draft.Json
import Bindle.Files.Reading
import Bindle.Files.Tree
import Bindle.Graph.Basic
import Bindle.Graph.Cycle
import Bindle.Graph.Lemmas
import Bindle.Graph.Tables
import Bindle.Group.Name
import Bindle.Group.Policy
import Bindle.Invoice.Assembly
import Bindle.Invoice.Basic
import Bindle.Invoice.Violation
import Bindle.Json.Fields
import Bindle.Json.Printer
import Bindle.Json.Reader
import Bindle.Json.Value
import Bindle.Label.Basic
import Bindle.Label.Json
import Bindle.Main
import Bindle.Proofs.CommandLine.Choices
import Bindle.Proofs.CommandLine.Documents
import Bindle.Proofs.CommandLine.ExitCodes
import Bindle.Proofs.CommandLine.Flags
import Bindle.Proofs.CommandLine.Output
import Bindle.Proofs.CommandLine.Precedence
import Bindle.Proofs.CommandLine.Projects
import Bindle.Proofs.Draft.Grammar
import Bindle.Proofs.Files.Walking
import Bindle.Proofs.Graph.Acyclicity
import Bindle.Proofs.Graph.Building
import Bindle.Proofs.Graph.Collecting
import Bindle.Proofs.Graph.Cycles
import Bindle.Proofs.Graph.Declarations
import Bindle.Proofs.Graph.Exclusion
import Bindle.Proofs.Graph.Flags
import Bindle.Proofs.Graph.Names
import Bindle.Proofs.Graph.Relations
import Bindle.Proofs.Graph.Relocation
import Bindle.Proofs.Graph.Reordering
import Bindle.Proofs.Graph.Tables
import Bindle.Proofs.Invoice.Acceptance
import Bindle.Proofs.Invoice.Duplicates
import Bindle.Proofs.Invoice.Naming
import Bindle.Proofs.Invoice.Reporting
import Bindle.Proofs.Invoice.Schema
import Bindle.Proofs.Invoice.Validity
import Bindle.Proofs.Json.Decoding
import Bindle.Proofs.Json.RoundTrip
import Bindle.Proofs.Label.RoundTrip
import Bindle.Proofs.Resolution.Accounts
import Bindle.Proofs.Resolution.AnyOf
import Bindle.Proofs.Resolution.Capacity
import Bindle.Proofs.Resolution.Closure
import Bindle.Proofs.Resolution.Completeness
import Bindle.Proofs.Resolution.Consistency
import Bindle.Proofs.Resolution.Divergence
import Bindle.Proofs.Resolution.Exclusion
import Bindle.Proofs.Resolution.Obstruction
import Bindle.Proofs.Resolution.OptingIn
import Bindle.Proofs.Resolution.Questions
import Bindle.Proofs.Resolution.Readings
import Bindle.Proofs.Resolution.Records
import Bindle.Proofs.Resolution.Relevance
import Bindle.Proofs.Resolution.Relocation
import Bindle.Proofs.Resolution.Reordering
import Bindle.Proofs.Resolution.Replay
import Bindle.Proofs.Resolution.Report
import Bindle.Proofs.Resolution.Rounds
import Bindle.Proofs.Resolution.Settling
import Bindle.Proofs.Resolution.Soundness
import Bindle.Proofs.Resolution.Standing
import Bindle.Proofs.Resolution.Steps
import Bindle.Proofs.Resolution.Termination
import Bindle.Proofs.Resolution.Unions
import Bindle.Proofs.Resolution.Verdict
import Bindle.Proofs.Sorted.Lookup
import Bindle.Proofs.Version.Commas
import Bindle.Proofs.Version.Pins
import Bindle.Proofs.Version.Readers
import Bindle.Proofs.Version.Reading
import Bindle.Resolution.Choice
import Bindle.Resolution.Failure
import Bindle.Resolution.Manifest
import Bindle.Resolution.Outcome
import Bindle.Resolution.Run
import Bindle.Resolution.Satisfaction
import Bindle.Settings
import Bindle.Sorted.NameSet
import Bindle.Sorted.StringMap
import Bindle.Text.Blank
import Bindle.Text.Column
import Bindle.Text.Printable
import Bindle.Text.Quoted
import Bindle.Toml.Document
import Bindle.Toml.Node
import Bindle.Toml.Scalar
import Bindle.Toml.Value
import Bindle.Version.Basic
import Bindle.Version.Reader
import Bindle.Version.Requirement
