/-!
Contract: why settings cannot be used.

Owns: `SettingsFault` and the wording of each cause.
-/

namespace ContentStore

/-- Why settings are missing or unusable. -/
inductive SettingsFault where
  /-- The document is no TOML, or binds a key to a value of a wrong type. -/
  | malformedDocument
  /-- The document does not bind a key that it must bind. -/
  | missingField (field : String)
  /-- The properties do not bind a key that they must bind. -/
  | missingProperty (key : String)
  | timeoutNotANumber (text : String)
  /-- A field holds nothing but white space. -/
  | emptyField (field : String)
  | timeoutNotPositive
deriving DecidableEq, Repr

def SettingsFault.message : SettingsFault → String
  | .malformedDocument => "TOML"
  | .missingField field => "missing field `" ++ field ++ "`"
  | .missingProperty key => "missing property " ++ key
  | .timeoutNotANumber text => "binstore.timeout.secs is not a number: '" ++ text ++ "'"
  | .emptyField field => field ++ " must not be empty"
  | .timeoutNotPositive => "request_timeout_secs must be positive"

end ContentStore
