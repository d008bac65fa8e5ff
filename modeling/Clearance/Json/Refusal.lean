import Clearance.Json.Number
import Clearance.Text.Quoted

/-!
# Why a text is refused

A text that should describe a record is refused because it is not JSON or because its shape is
not the record's. A `Mismatch` is the cause in the second case, and `Mismatch.message` words it.
-/

namespace Clearance

/-- What stands where something else is expected. -/
inductive Found where
  | null
  | bool (b : Bool)
  | number (n : Number)
  | text (s : String)
  | sequence
  | map
  deriving DecidableEq

/-- How the shape of a text differs from the expected one. -/
inductive Mismatch where
  | wrongType (found : Found) (expected : String)
  | missingField (name : String)
  | duplicateField (name : String)
  | unknownVariant (name : String) (known : List String)
  | wrongLength (length : Nat) (expected : String)
  /-- A variant is given by an object that has not exactly one member. -/
  | notOneMember
  deriving DecidableEq

/-- Why a text is refused. -/
inductive Refusal where
  /-- The text is not JSON, or a value in it cannot be kept. -/
  | notJson
  | mismatch (m : Mismatch)
  deriving DecidableEq

/-- What was found, in words. -/
def Found.describe : Found → String
  | null => "null"
  | bool true => "boolean `true`"
  | bool false => "boolean `false`"
  | number (.whole n) => "integer `" ++ (Number.whole n).text ++ "`"
  | number (.double d) => "floating point `" ++ (Number.double d).text ++ "`"
  | text s => "string " ++ Text.quoted s
  | sequence => "sequence"
  | map => "map"

/-- The mismatch in words. -/
def Mismatch.message : Mismatch → String
  | wrongType found expected => "invalid type: " ++ found.describe ++ ", expected " ++ expected
  | missingField name => "missing field `" ++ name ++ "`"
  | duplicateField name => "duplicate field `" ++ name ++ "`"
  | unknownVariant name known =>
    "unknown variant `" ++ name ++ "`, expected one of " ++
      ", ".intercalate (known.map fun k => "`" ++ k ++ "`")
  | wrongLength length expected =>
    "invalid length " ++ toString length ++ ", expected " ++ expected
  | notOneMember => "invalid value: map, expected map with a single key"

/-- The refusal in words; what makes a text no JSON is not told apart. -/
def Refusal.message : Refusal → String
  | notJson => "not JSON"
  | mismatch m => m.message

end Clearance
