import Clearance.Fault
import Clearance.Identity.Payload
import Clearance.Identity.Principal

/-!
# Collaborators

A session relies on five collaborators: one finds the token of the request, one decodes it, one
looks up principals, one invalidates tokens, and one is told of logins and logouts. A `Call` is a
question to one of them. What the collaborators answer may depend on the state of the world and
change it, and every call but the search for a token may fail.
-/

namespace Clearance

/-- Which principal record is wanted. -/
structure Lookup where
  /-- The model of the record. -/
  model : String
  /-- The attribute that is compared. -/
  field : String
  /-- What the attribute must be, as a lookup key. -/
  value : String
  /-- The relations to load with the record. -/
  relations : List String
  deriving DecidableEq

/-- A question to a collaborator. -/
inductive Call where
  /-- Find the token under the first of the names. -/
  | find (candidates : List String)
  /-- Decode a token. -/
  | decode (token : String)
  /-- Look up a principal. -/
  | lookup (wanted : Lookup)
  /-- Invalidate a token. -/
  | invalidate (token : String)
  /-- Bind a principal to the session. -/
  | login (principal : Principal)
  /-- Tear the session down. -/
  | logout
  deriving DecidableEq

/-- What the answer to a call is. -/
abbrev Call.Reply : Call → Type
  | find _ => Option String
  | decode _ => Except DecodeFault Payload
  | lookup _ => Except Fault (Option Principal)
  | invalidate _ => Except Fault Unit
  | login _ => Except Fault Unit
  | logout => Except Fault Unit

/-- A call and its answer. -/
structure Exchange where
  /-- The call. -/
  call : Call
  /-- The answer. -/
  reply : call.Reply

/-- How the collaborators answer in a world, and what becomes of the world. -/
abbrev Collaborators (W : Type) := (call : Call) → W → call.Reply × W

namespace Exchange

/-- A search for a token. -/
def isFind : Exchange → Bool
  | ⟨.find _, _⟩ => true
  | _ => false

/-- An attempt to decode a token. -/
def isDecode : Exchange → Bool
  | ⟨.decode _, _⟩ => true
  | _ => false

/-- An attempt to invalidate a token. -/
def isInvalidate : Exchange → Bool
  | ⟨.invalidate _, _⟩ => true
  | _ => false

end Exchange

end Clearance
