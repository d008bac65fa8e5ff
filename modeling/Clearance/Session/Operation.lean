import Clearance.Policy.Evaluate
import Clearance.Session.Basic

/-!
# Operations on a session

An `Operation` is what the hosting application may ask of a session under a configuration, and
`Session.perform` gives its answer and the session afterwards. Checking a policy sets the guard
first, and the guard stays set. `Session.run` performs operations one after the other.
-/

namespace Clearance

/-- What may be asked of a session. -/
inductive Operation where
  /-- Set the guard, to the configured default if none is given. -/
  | setGuard (guardPrefix : Option String)
  /-- Take a payload as the credential. -/
  | setAuth (payload : Payload)
  /-- The payload of the credential. -/
  | auth
  /-- The claim sets of the credential. -/
  | claims
  /-- The principal behind the credential, with the relations named. -/
  | user (relations : List String)
  /-- Check a policy text under a guard. -/
  | userHas (policy : String) (guardPrefix : Option String)
  /-- Check a condition under a guard. -/
  | userHasCondition (condition : Condition) (guardPrefix : Option String)
  /-- Bind the principal to the session. -/
  | login
  /-- End the session. -/
  | logout
  /-- The token of the request. -/
  | getToken
  deriving DecidableEq

/-- What an operation answers. -/
inductive Answer where
  | done
  | payload (found : Option Payload)
  | claims (found : Option ClaimSet)
  | principal (found : Except Fault (Option Principal))
  | access (decision : Access)
  | outcome (result : Except Fault Unit)
  | token (found : Option String)

/-- The decision about a condition for a credential, if there is one. -/
def Condition.access (c : Condition) (config : AuthConfig) : Option Payload → Access
  | none => .unauthenticated
  | some p =>
    .ofVerdict (c.evaluate (.ofPayload p config.identityClaim config.claims)
      (.ofPayload p config.claims.hierarchyClaim))

namespace Session

variable {W : Type}

/-- A session of a context: its guard is the configured default. -/
def ofConfig (config : AuthConfig) (world : W) : Session W :=
  start (config.defaultGuard.getD "") world

/-- Sets the guard, to the configured default if none is given. -/
def setGuard (config : AuthConfig) (guardPrefix : Option String) (s : Session W) : Session W :=
  { s with guardPrefix := (guardPrefix.or config.defaultGuard).getD "" }

/-- Takes a payload as the credential; a remembered principal stays. -/
def setPayload (p : Payload) (s : Session W) : Session W := { s with payload := some p }

/-- Checks a condition under a guard. -/
def check (peers : Collaborators W) (config : AuthConfig) (condition : Condition)
    (guardPrefix : Option String) (s : Session W) : Access × Session W :=
  let (found, s) := (s.setGuard config guardPrefix).resolvePayload peers
  (condition.access config found, s)

/-- Performs an operation. -/
def perform (peers : Collaborators W) (config : AuthConfig) (operation : Operation)
    (s : Session W) : Answer × Session W :=
  match operation with
  | .setGuard guardPrefix => (.done, s.setGuard config guardPrefix)
  | .setAuth p => (.done, s.setPayload p)
  | .auth =>
    let (found, s) := s.resolvePayload peers
    (.payload found, s)
  | .claims =>
    let (found, s) := s.resolvePayload peers
    (.claims (found.map fun p => .ofPayload p config.identityClaim config.claims), s)
  | .user relations =>
    let (found, s) := s.resolvePrincipal peers config relations
    (.principal found, s)
  | .userHas policy guardPrefix =>
    let (decision, s) := s.check peers config (.parse policy) guardPrefix
    (.access decision, s)
  | .userHasCondition condition guardPrefix =>
    let (decision, s) := s.check peers config condition guardPrefix
    (.access decision, s)
  | .login =>
    let (result, s) := s.login peers config
    (.outcome (result.map fun _ => ()), s)
  | .logout =>
    let (result, s) := s.logout peers
    (.outcome result, s)
  | .getToken =>
    let (found, s) := s.findToken peers
    (.token found, s)

/-- Performs operations one after the other. -/
def run (peers : Collaborators W) (config : AuthConfig) :
    List Operation → Session W → List Answer × Session W
  | [], s => ([], s)
  | operation :: rest, s =>
    let (answer, s) := s.perform peers config operation
    let (answers, s) := run peers config rest s
    (answer :: answers, s)

end Session

end Clearance
