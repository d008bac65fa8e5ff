import Clearance.Fault
import Clearance.Identity.Payload
import Clearance.NameSet

/-!
# Tokens in memory

`Tokens` decodes the tokens registered with it and keeps the set of revoked ones. If it checks
revocations, a revoked token never decodes again, whether it is registered or not.
-/

namespace Clearance

/-- Registered payloads and revoked tokens. -/
structure Tokens where
  /-- The payload of each registered token, the latest first. -/
  registered : List (String × Payload)
  /-- The revoked tokens. -/
  revoked : NameSet
  /-- Revoked tokens do not decode. -/
  checksRevocation : Bool
  deriving DecidableEq

namespace Tokens

/-- No token. -/
def empty (checksRevocation : Bool) : Tokens := ⟨[], ∅, checksRevocation⟩

instance : Inhabited Tokens := ⟨empty true⟩

/-- Registers a token with the payload it decodes to. -/
def register (t : Tokens) (token : String) (payload : Payload) : Tokens :=
  { t with registered := (token, payload) :: t.registered }

/-- Revokes a token. -/
def revoke (t : Tokens) (token : String) : Tokens := { t with revoked := t.revoked.insert token }

/-- Decodes a token. -/
def decode (t : Tokens) (token : String) : Except DecodeFault Payload :=
  if t.checksRevocation ∧ token ∈ t.revoked then .error .revoked
  else
    match t.registered.lookup token with
    | some payload => .ok payload
    | none => .error (.malformed "unknown token")

end Tokens

end Clearance
