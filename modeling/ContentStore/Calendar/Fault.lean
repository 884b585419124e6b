/-!
Contract: why a text is no date.

Owns: `DateFault` and the wording of each cause.
-/

namespace ContentStore

/-- Why a text does not read as a date under a pattern. -/
inductive DateFault where
  /-- A number of the text is beyond what its field can hold. -/
  | outOfRange
  /-- The fields of the text contradict one another or name no date. -/
  | impossible
  /-- The fields of the text do not determine a date. -/
  | notEnough
  /-- The text has a character that the pattern does not allow there. -/
  | invalid
  /-- The text ends before the pattern does. -/
  | tooShort
  /-- The text goes on after the pattern ends. -/
  | tooLong
  /-- The pattern itself is malformed or asks for what cannot be read. -/
  | badPattern
deriving DecidableEq, Repr

def DateFault.message : DateFault → String
  | .outOfRange => "input is out of range"
  | .impossible => "no possible date and time matching input"
  | .notEnough => "input is not enough for unique date and time"
  | .invalid => "input contains invalid characters"
  | .tooShort => "premature end of input"
  | .tooLong => "trailing input"
  | .badPattern => "bad or unsupported format string"

end ContentStore
