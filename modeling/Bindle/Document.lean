import Bindle.Draft.Json
import Bindle.Invoice.Assembly
import Bindle.Resolution.Choice
import Bindle.Toml.Document

/-!
# Invoices and choices as documents

Invoices and recorded choices are kept as TOML documents. A document of choices is one table from
group to parcel. An invoice can fail at two points: the document may not decode, or what it
decodes to may not be an invoice.

The model of the decoding of invoices and choice files in section 1 of `SPEC_FULL.md`.

Main definitions: `InvoiceDraft.parse?`, `Invoice.parse`, `ChoiceMap.parse?`.
-/

namespace Bindle

/-- The draft that a document holds. -/
def InvoiceDraft.parse? (text : String) : Option InvoiceDraft :=
  (Toml.parse? text).bind (read? .ignored ·.toJson)

/-- The message on a document that holds no draft. -/
def InvoiceDraft.unreadableMessage : String := "Failed to parse invoice TOML"

/-- The choices that an object records. -/
def ChoiceMap.ofJson? : Json → Option ChoiceMap :=
  Json.mapOf? Json.text?

/-- The choices that a document records. -/
def ChoiceMap.parse? (text : String) : Option ChoiceMap :=
  (Toml.parse? text).bind (ofJson? ·.toJson)

/-- The message on a document that records no choices. -/
def ChoiceMap.unreadableMessage : String := "Failed to parse choices TOML"

/-- Why a document is no invoice. -/
inductive InvoiceError where
  | unreadable
  | violation (v : Violation)
  deriving DecidableEq

/-- The invoice that a document holds. -/
def Invoice.parse (text : String) : Except InvoiceError Invoice :=
  match InvoiceDraft.parse? text with
  | none => .error .unreadable
  | some draft => (Invoice.ofDraft draft).mapError .violation

end Bindle
