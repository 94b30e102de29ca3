import Bindle.Label.Basic

/-!
# Drafts of invoices

A draft is an invoice as it was decoded: every field has the right type, and nothing else was
checked. What may be left out is optional here, so that leaving a field out and giving it an empty
value stay two things; the list of groups a parcel is a member of depends on it.

The model of `RawInvoice`, the input of section 6 of `SPEC_FULL.md`.

Main definition: `InvoiceDraft`.
-/

namespace Bindle

/-- What a draft says about the bindle. -/
structure BindleDraft where
  name : String := ""
  version : String := ""
  description : Option String := none
  authors : Option (List String) := none
  deriving DecidableEq

/-- What a draft says about a group. -/
structure GroupDraft where
  name : String := ""
  required : Option Bool := none
  satisfiedBy : Option String := none
  deriving DecidableEq

/-- What a draft says about a parcel's place: its groups and the groups that it requires. -/
structure ConditionsDraft where
  memberOf : Option (List String) := none
  requires : Option (List String) := none
  deriving DecidableEq

/-- What a draft says about a parcel. -/
structure ParcelDraft where
  label : LabelDraft := {}
  conditions : Option ConditionsDraft := none
  deriving DecidableEq

/-- An invoice of which only the types of its fields were checked. Signatures are no part of it. -/
structure InvoiceDraft where
  bindleVersion : String := ""
  yanked : Option Bool := none
  bindle : BindleDraft := {}
  annotations : Option Annotations := none
  groups : Option (List GroupDraft) := none
  parcels : Option (List ParcelDraft) := none
  deriving DecidableEq

end Bindle
