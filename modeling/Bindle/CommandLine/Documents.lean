import Bindle.CommandLine.Report
import Bindle.Document
import Bindle.Files.Reading

/-!
# Documents from files

Commands read invoices and recorded choices from files. When that fails, the causes say which file
it was and what is wrong with it.

The model of the adapter for invoice and choice files in section 2 of `SPEC_FULL.md`.

Main definitions: `InvoiceDraft.load`, `Invoice.load`, `ChoiceMap.load`.
-/

namespace Bindle

/-- The message on a file that is no invoice. -/
def invalidInvoice (path : String) : String := s!"Invalid invoice: {path}"

/-- The draft in a file. -/
def InvoiceDraft.load (files : Files) (path : String) : Except Causes InvoiceDraft :=
  match files path with
  | .error e => .error [s!"Failed to read invoice: {path}", e.message]
  | .ok text =>
    match InvoiceDraft.parse? text with
    | some draft => .ok draft
    | none => .error [invalidInvoice path, unreadableMessage, Toml.parseErrorText]

/-- The invoice in a file. -/
def Invoice.load (files : Files) (path : String) : Except Causes Invoice := do
  let draft ← InvoiceDraft.load files path
  match Invoice.ofDraft draft with
  | .ok invoice => return invoice
  | .error violation => throw (invalidInvoice path :: violation.causes)

/-- The choices in a file. -/
def ChoiceMap.load (files : Files) (path : String) : Except Causes ChoiceMap :=
  match files path with
  | .error e => .error [s!"Failed to read choices: {path}", e.message]
  | .ok text =>
    match ChoiceMap.parse? text with
    | some choices => .ok choices
    | none =>
      .error [s!"Invalid choices file: {path}", unreadableMessage, Toml.parseErrorText]

end Bindle
