import Clearance.Json.Codec
import Clearance.Policy.Hierarchy

/-!
# Payloads

A payload is the object of claims that a token decodes to, in decoded order. A claim is rendered
as a lookup key if it is a scalar other than null and the key is not empty. One claim may carry
the catalog of roles, from which `Hierarchy.ofPayload` takes the hierarchy.
-/

namespace Clearance

/-- The claims of a token. -/
structure Payload where
  /-- The claims in decoded order. -/
  claims : List (String × Json)
  deriving DecidableEq

namespace Payload

instance : Inhabited Payload := ⟨⟨[]⟩⟩

instance : Codec Payload where
  toJson p := .object p.claims
  read d := (d.readMembers 0).map Payload.mk

/-- The payload that a value is, if it is an object. -/
def ofObject? : Json → Option Payload
  | .object members => some ⟨members⟩
  | _ => none

/-- The payload with the given claims, set one after the other. -/
def ofPairs (pairs : List (String × Json)) : Payload := ⟨Json.ofPairs pairs⟩

/-- The claim of a name. -/
def claim? (p : Payload) (name : String) : Option Json := p.claims.lookup name

/-- The claim of a name as a lookup key. -/
def key? (p : Payload) (name : String) : Option String :=
  (p.claim? name).bind Json.scalarText |>.filter (· ≠ "")

end Payload

/-- The role catalog in a claim: the names of an object, or the texts of an array. -/
def Hierarchy.ofPayload (p : Payload) (claim : String) : Hierarchy :=
  match p.claim? claim with
  | some (.object members) => ⟨members.map Prod.fst⟩
  | some (.array items) => ⟨items.filterMap fun | .text s => some s | _ => none⟩
  | _ => ⟨[]⟩

instance : Codec Hierarchy where
  toJson h := .array (h.roles.map .text)
  read d := d.readTexts.map Hierarchy.mk

end Clearance
