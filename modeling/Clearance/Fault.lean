import Clearance.Json.Refusal

/-!
# Faults

What can go wrong around an access decision, each cause with its message. A missing credential
and a violated policy are no faults: the first is an absent payload, the second a `Violation`.
-/

namespace Clearance

/-- Why a token does not decode. -/
inductive DecodeFault where
  | malformed (reason : String)
  | invalidSignature
  | expired
  | revoked
  deriving DecidableEq

/-- The fault in words. -/
def DecodeFault.message : DecodeFault → String
  | malformed reason => "Malformed token: " ++ reason
  | invalidSignature => "Invalid token signature"
  | expired => "Token expired"
  | revoked => "Token revoked"

/-- What can go wrong. -/
inductive Fault where
  /-- No record of the model has the value in the field. -/
  | principalNotFound (model field value : String)
  /-- A policy text is refused by strict parsing. -/
  | invalidCondition (reason : String)
  /-- The principal store fails. -/
  | store (reason : String)
  /-- A token cannot be invalidated. -/
  | invalidation (reason : String)
  /-- The session layer fails. -/
  | session (reason : String)
  /-- A configuration is refused. -/
  | config (reason : String)
  /-- A text is refused. -/
  | serialization (refusal : Refusal)
  deriving DecidableEq

namespace Fault

/-- The fault in words. -/
def message : Fault → String
  | principalNotFound model field value =>
    "Principal not found: " ++ model ++ " where " ++ field ++ " = '" ++ value ++ "'"
  | invalidCondition reason => "Invalid condition: " ++ reason
  | store reason => "Principal store error: " ++ reason
  | invalidation reason => "Token invalidation failed: " ++ reason
  | session reason => "Session error: " ++ reason
  | config reason => "Configuration error: " ++ reason
  | serialization refusal => "Serialization error: " ++ refusal.message

/-- The policy has the given number of segments and not three. -/
def segmentCount (found : Nat) (policy : String) : Fault :=
  invalidCondition
    ("expected 3 ':'-separated segments, found " ++ toString found ++ " in '" ++ policy ++ "'")

/-- The named setting is empty. -/
def emptySetting (name : String) : Fault := config (name ++ " cannot be empty")

end Fault

end Clearance
