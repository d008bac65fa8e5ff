import Clearance.Memory.Records
import Clearance.Memory.Tokens
import Clearance.Request.Locator

/-!
# Collaborators in memory

A `Memory` is the world of collaborators that keep everything in memory: the request, the tokens,
the principal records and the session events. Each of them can be made to fail: a token can have
a decode fault of its own, and the store, the invalidator and the session layer fail while a
reason is set for them. A call that fails changes nothing.
-/

namespace Clearance

/-- What the session layer has been told. -/
inductive Event where
  /-- A principal was bound to the session. -/
  | login (principal : Principal)
  /-- The session was torn down. -/
  | logout
  deriving DecidableEq

/-- The reasons for which calls fail at present. -/
structure Failures where
  /-- Why lookups fail. -/
  store : Option String
  /-- Why invalidations fail. -/
  invalidate : Option String
  /-- Why logins fail. -/
  login : Option String
  /-- Why logouts fail. -/
  logout : Option String
  deriving DecidableEq

/-- Nothing fails. -/
def Failures.none : Failures := ⟨.none, .none, .none, .none⟩

/-- The world of the collaborators in memory. -/
structure Memory where
  /-- The current request. -/
  request : Request
  /-- The registered and revoked tokens. -/
  tokens : Tokens
  /-- Decode faults of single tokens. -/
  undecodable : List (String × DecodeFault)
  /-- The principal records. -/
  records : Records
  /-- The session events, the earliest first. -/
  events : List Event
  /-- What fails at present. -/
  failures : Failures
  deriving DecidableEq

namespace Memory

/-- A memory that holds nothing but the request. -/
def ofRequest (request : Request) (checksRevocation : Bool) : Memory :=
  { request
    tokens := .empty checksRevocation
    undecodable := []
    records := .empty
    events := []
    failures := .none }

/-! ## Changes from outside -/

/-- Registers a token with its payload and takes a decode fault of its own away. -/
def register (m : Memory) (token : String) (payload : Payload) : Memory :=
  { m with
    tokens := m.tokens.register token payload
    undecodable := m.undecodable.filter (·.1 ≠ token) }

/-- Gives a token a decode fault of its own. -/
def refuse (m : Memory) (token : String) (fault : DecodeFault) : Memory :=
  { m with undecodable := (token, fault) :: m.undecodable }

/-- Revokes a token. -/
def revoke (m : Memory) (token : String) : Memory := { m with tokens := m.tokens.revoke token }

/-- Adds a principal record. -/
def insert (m : Memory) (p : Principal) : Memory := { m with records := m.records.insert p }

/-! ## Answers -/

/-- Decodes a token. -/
def decode (m : Memory) (token : String) : Except DecodeFault Payload :=
  match m.undecodable.lookup token with
  | some fault => .error fault
  | none => m.tokens.decode token

/-- Answers a call unless it fails for a reason. -/
def answerUnless (reason : Option String) (fault : String → Fault) {α : Type} (m : Memory)
    (answer : α × Memory) : Except Fault α × Memory :=
  match reason with
  | some reason => (.error (fault reason), m)
  | none => (.ok answer.1, answer.2)

/-- How the collaborators in memory answer. -/
def peers : Collaborators Memory
  | .find names, m => (m.request.token? names, m)
  | .decode token, m => (m.decode token, m)
  | .lookup wanted, m =>
    let (found, records) := m.records.find wanted
    m.answerUnless m.failures.store .store (found, { m with records })
  | .invalidate token, m => m.answerUnless m.failures.invalidate .invalidation ((), m.revoke token)
  | .login p, m =>
    m.answerUnless m.failures.login .session ((), { m with events := m.events ++ [.login p] })
  | .logout, m =>
    m.answerUnless m.failures.logout .session ((), { m with events := m.events ++ [.logout] })

end Memory

end Clearance
