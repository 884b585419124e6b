import ContentStore.Text.Decimal
import ContentStore.Text.Quoted

/-!
Contract: why a document is no bucket listing.

Owns: `ListingFault` and the wording of each cause.
-/

namespace ContentStore

/-- Why a document does not read as a bucket listing. -/
inductive ListingFault where
  /-- The document is not well-formed markup, or ends early. -/
  | malformed
  /-- A record lacks a field that it must have. -/
  | missingField (field : String)
  | duplicateField (field : String)
  /-- Text stands where a record was expected. -/
  | unexpectedText (text : String) (record : String)
  /-- A number is none, or too large. -/
  | number (cause : Text.Decimal.Fault)
  /-- A truth value is spelled in an unknown way. -/
  | notATruthValue (text : String)
deriving DecidableEq, Repr

def ListingFault.message : ListingFault → String
  | .malformed => "malformed document"
  | .missingField field => "missing field `" ++ field ++ "`"
  | .duplicateField field => "duplicate field `" ++ field ++ "`"
  | .unexpectedText text record =>
    "invalid type: string " ++ Text.quoted text ++ ", expected struct " ++ record
  | .number cause => cause.message
  | .notATruthValue text => "Invalid boolean value '" ++ text ++ "'"

end ContentStore
