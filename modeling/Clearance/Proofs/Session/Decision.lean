import Clearance.Proofs.Session.Step

/-!
# Decisions of a session

A check of a policy is nothing new: it decides as a caller would who sets the guard, asks for the
payload and for its claim sets, and evaluates the policy on them. `decided_as_evaluated` says so in
every state, of the answer and of the session that is left. On the way a check talks to nobody but
the locator and the decoder, and it leaves the remembered principal alone.
-/

namespace Clearance.Session

variable {W : Type} {peers : Collaborators W} {config : AuthConfig} {op : Operation}
variable {s : Session W}

/-- A payload that was resolved is resolved again at no cost. -/
theorem resolvePayload_again {p : Payload} (h : (s.resolvePayload peers).1 = some p) :
    (s.resolvePayload peers).2.resolvePayload peers = (some p, (s.resolvePayload peers).2) :=
  resolvePayload_of_some (payload_resolvePayload.trans h)

/-- The claim sets are those of the payload that was asked for. -/
theorem claims_after_auth {p : Payload} (h : (s.perform peers config .auth).1 = .payload (some p)) :
    (s.perform peers config .auth).2.perform peers config .claims =
      (.claims (some (.ofPayload p config.identityClaim config.claims)),
        (s.perform peers config .auth).2) := by
  have hresolved : (s.resolvePayload peers).1 = some p := Answer.payload.inj h
  show (Answer.claims (Option.map _ ((s.resolvePayload peers).2.resolvePayload peers).1),
    ((s.resolvePayload peers).2.resolvePayload peers).2) = _
  rw [resolvePayload_again hresolved]
  rfl

/-- A check under a guard is the decision about the payload that is asked for under that guard. -/
theorem userHasCondition_of_auth {condition : Condition} {guardPrefix : Option String}
    {found : Option Payload}
    (h : ((s.setGuard config guardPrefix).perform peers config .auth).1 = .payload found) :
    s.perform peers config (.userHasCondition condition guardPrefix) =
      (.access (condition.access config found),
        ((s.setGuard config guardPrefix).perform peers config .auth).2) := by
  have hresolved : ((s.setGuard config guardPrefix).resolvePayload peers).1 = found :=
    Answer.payload.inj h
  rw [← hresolved]
  rfl

/-- What is remembered of the principal changes only if an operation asks for it or ends the
session. -/
theorem principal_perform_eq (hop : ¬ op.NeedsPrincipal) (hlogout : op ≠ .logout) :
    (s.perform peers config op).2.principal = s.principal := by
  cases hs : s.principal with
  | none => exact principal_perform_eq_none hop hs
  | some u => exact principal_perform hlogout hs

/-- An operation that asks for a payload and no principal talks to the locator and the decoder
only. -/
theorem isFind_or_isDecode_of_mem {e : Exchange} (hop : ¬ op.NeedsPrincipal)
    (hlogin : op ≠ .login) (hlogout : op ≠ .logout)
    (he : e ∈ (s.perform peers config op).2.exchangesSince s) : e.isFind ∨ e.isDecode := by
  have hcall : op.MayCall e.call := (perform_talks op s).may_of_mem he
  obtain ⟨call, reply⟩ := e
  cases call with
  | find names => exact .inl rfl
  | decode token => exact .inr rfl
  | lookup wanted => exact absurd hcall hop
  | invalidate token => exact absurd hcall hlogout
  | login u => exact absurd hcall hlogin
  | logout => exact absurd hcall hlogout

/-- **A check decides as the evaluation does.** In every state and with any collaborators, a check
of a policy leaves the guard that it is given, or the configured one if it is given none. It answers
what comes of setting that guard and asking for the payload: without one there is no credential, and
with one the claim sets that are asked for next and the hierarchy of the payload decide, granted or
denied with the violation of the evaluation. It leaves the session as those questions do. A check of
the parsed policy is the same, and neither changes the remembered principal or calls anybody but the
locator and the decoder. -/
theorem decided_as_evaluated (peers : Collaborators W) (config : AuthConfig) (policy : String)
    (guardPrefix : Option String) (s : Session W) :
    let guarded := (s.perform peers config (.setGuard guardPrefix)).2
    let asked := guarded.perform peers config .auth
    let answered := s.perform peers config (.userHas policy guardPrefix)
    answered.2.guardPrefix = guardPrefix.getD (config.defaultGuard.getD "") ∧
      (asked.1 = .payload none ∧ answered = (.access .unauthenticated, asked.2) ∨
        ∃ p claims, asked.1 = .payload (some p) ∧
          asked.2.perform peers config .claims = (.claims (some claims), asked.2) ∧
          answered =
            (.access
              (match evaluate policy claims (.ofPayload p config.claims.hierarchyClaim) with
              | .ok () => .granted
              | .error violation => .denied violation), asked.2)) ∧
      s.perform peers config (.userHasCondition (.parse policy) guardPrefix) = answered ∧
      answered.2.principal = s.principal ∧
      ∀ e ∈ answered.2.exchangesSince s, e.isFind ∨ e.isDecode := by
  intro guarded asked answered
  have hguard : answered.2.guardPrefix = (guardPrefix.or config.defaultGuard).getD "" :=
    guardPrefix_perform (.userHas policy guardPrefix) s
  have hanswered : ∀ found, asked.1 = .payload found →
      answered = (.access ((Condition.parse policy).access config found), asked.2) :=
    fun _ => userHasCondition_of_auth
  have hop : ¬ (Operation.userHas policy guardPrefix).NeedsPrincipal := id
  refine ⟨?_, ?_, rfl, principal_perform_eq hop nofun, fun e => ?_⟩
  · rw [hguard]
    cases guardPrefix <;> rfl
  · cases hfound : (guarded.resolvePayload peers).1 with
    | none =>
      have hasked : asked.1 = .payload none := congrArg Answer.payload hfound
      exact .inl ⟨hasked, hanswered none hasked⟩
    | some p =>
      have hasked : asked.1 = .payload (some p) := congrArg Answer.payload hfound
      refine .inr ⟨p, _, hasked, claims_after_auth hasked, (hanswered (some p) hasked).trans ?_⟩
      unfold Condition.access Access.ofVerdict evaluate
      rfl
  · exact isFind_or_isDecode_of_mem hop nofun nofun

end Clearance.Session
