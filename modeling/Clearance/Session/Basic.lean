import Clearance.Config
import Clearance.Session.Collaborators

/-!
# Sessions

A session serves one request. It remembers the payload of the credential and the principal behind
it once they are resolved, and forgets both at logout. A guard goes in front of the names under
which the token is looked for. The journal holds every call that the session has made, with its
answer.
-/

namespace Clearance

/-- The state of a session among collaborators whose state is `W`. -/
structure Session (W : Type) where
  /-- What goes in front of the names of the token. -/
  guardPrefix : String
  /-- The remembered payload. -/
  payload : Option Payload
  /-- The remembered principal. -/
  principal : Option Principal
  /-- The state of the collaborators. -/
  world : W
  /-- The calls made so far. -/
  journal : List Exchange

/-- The names under which a token is looked for, without a guard. -/
def tokenNames : List String := ["authorization", "token", "access_token"]

/-- The names under which a token is looked for. -/
def candidates (guardPrefix : String) : List String := tokenNames.map (guardPrefix ++ ·)

namespace Session

variable {W : Type}

/-- A session that remembers nothing. -/
def start (guardPrefix : String) (world : W) : Session W := ⟨guardPrefix, none, none, world, []⟩

/-- Changes the world from outside. -/
def change (f : W → W) (s : Session W) : Session W := { s with world := f s.world }

/-- Makes a call. -/
def ask (peers : Collaborators W) (call : Call) (s : Session W) : call.Reply × Session W :=
  let answer := peers call s.world
  (answer.1, { s with world := answer.2, journal := s.journal ++ [⟨call, answer.1⟩] })

section
variable (peers : Collaborators W) (call : Call) (s : Session W)

@[simp]
theorem fst_ask : (s.ask peers call).1 = (peers call s.world).1 := rfl

@[simp]
theorem world_ask : (s.ask peers call).2.world = (peers call s.world).2 := rfl

/-- A call is added to the end of the journal. -/
@[simp]
theorem journal_ask :
    (s.ask peers call).2.journal = s.journal ++ [⟨call, (peers call s.world).1⟩] := rfl

@[simp]
theorem guardPrefix_ask : (s.ask peers call).2.guardPrefix = s.guardPrefix := rfl

@[simp]
theorem payload_ask : (s.ask peers call).2.payload = s.payload := rfl

@[simp]
theorem principal_ask : (s.ask peers call).2.principal = s.principal := rfl

end

/-! ## Credentials -/

/-- Finds the token of the request, without decoding it. -/
def findToken (peers : Collaborators W) (s : Session W) : Option String × Session W :=
  s.ask peers (.find (candidates s.guardPrefix))

/-- The payload of the credential: the remembered one, or that of the token of the request, which
is then remembered. A missing token and one that does not decode are both no credential. -/
def resolvePayload (peers : Collaborators W) (s : Session W) : Option Payload × Session W :=
  match s.payload with
  | some p => (some p, s)
  | none =>
    match s.findToken peers with
    | (none, s) => (none, s)
    | (some token, s) =>
      match s.ask peers (.decode token) with
      | (.error _, s) => (none, s)
      | (.ok p, s) => (some p, { s with payload := some p })

/-! ## Principals -/

/-- The principal behind the credential: the remembered one whatever relations are asked for, or
the record under the identity key of the payload, which is then remembered. -/
def resolvePrincipal (peers : Collaborators W) (config : AuthConfig) (relations : List String)
    (s : Session W) : Except Fault (Option Principal) × Session W :=
  match s.principal with
  | some u => (.ok (some u), s)
  | none =>
    match s.resolvePayload peers with
    | (none, s) => (.ok none, s)
    | (some p, s) =>
      let notFound (value : String) : Fault :=
        .principalNotFound config.principalModel config.storeKey value
      match p.key? config.identityClaim with
      | none => (.error (notFound ""), s)
      | some key =>
        match s.ask peers (.lookup ⟨config.principalModel, config.storeKey, key, relations⟩) with
        | (.error fault, s) => (.error fault, s)
        | (.ok none, s) => (.error (notFound key), s)
        | (.ok (some u), s) => (.ok (some u), { s with principal := some u })

/-! ## Login and logout -/

/-- Binds the principal to the session and answers with it; without a credential nothing
happens. -/
def login (peers : Collaborators W) (config : AuthConfig) (s : Session W) :
    Except Fault (Option Principal) × Session W :=
  match s.resolvePrincipal peers config [] with
  | (.error fault, s) => (.error fault, s)
  | (.ok none, s) => (.ok none, s)
  | (.ok (some u), s) =>
    match s.ask peers (.login u) with
    | (.error fault, s) => (.error fault, s)
    | (.ok (), s) => (.ok (some u), s)

/-- Invalidates the token of the request, if there is one. -/
def invalidateToken (peers : Collaborators W) (s : Session W) : Except Fault Unit × Session W :=
  match s.findToken peers with
  | (none, s) => (.ok (), s)
  | (some token, s) => s.ask peers (.invalidate token)

/-- Forgets the payload and the principal. -/
def forget (s : Session W) : Session W := { s with payload := none, principal := none }

/-- Invalidates the token, forgets what was resolved and tears the session down. All three happen
whatever fails; the first fault is the answer. -/
def logout (peers : Collaborators W) (s : Session W) : Except Fault Unit × Session W :=
  let (invalidation, s) := s.invalidateToken peers
  let (teardown, s) := s.forget.ask peers .logout
  match invalidation with
  | .error fault => (.error fault, s)
  | .ok () => (teardown, s)

end Session

end Clearance
