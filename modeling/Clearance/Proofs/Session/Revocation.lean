import Clearance.Memory.World
import Clearance.Proofs.Session.History

/-!
# Revocation at logout

A session does not remember the token that its payload was decoded from. Logout looks for the token
again, under the guard in force by then, and revokes what it finds. With one request throughout and
with tokens that check revocations, `logout_revokes_iff` says when that is enough: the token behind
the payload is revoked exactly if it is the one found again, as it is under the guard under which it
was decoded. A revoked token never decodes again, under any guard.
-/

namespace Clearance

/-- The collaborators when the request stays the same and the tokens are in memory. A token is
invalidated by revoking it; records and session events are with others. -/
def Tokens.peers {W : Type} (request : Request) (others : Collaborators W) :
    Collaborators (Tokens × W)
  | .find names, w => (request.token? names, w)
  | .decode token, w => (w.1.decode token, w)
  | .lookup wanted, w => others.beside Tokens (.lookup wanted) w
  | .invalidate token, w => (.ok (), (w.1.revoke token, w.2))
  | .login u, w => others.beside Tokens (.login u) w
  | .logout, w => others.beside Tokens .logout w

namespace Tokens

theorem notMem_revoked_of_decode {t : Tokens} {token : String} {p : Payload}
    (hcheck : t.checksRevocation = true) (h : t.decode token = .ok p) : token ∉ t.revoked := by
  intro hmem
  rw [decode, if_pos ⟨hcheck, hmem⟩] at h
  cases h

end Tokens

namespace Session

section
variable {W : Type} {request : Request} {others : Collaborators W} {config : AuthConfig}
variable {s : Session (Tokens × W)} {token guardPrefix : String}

/-! ## Calls and the tokens -/

/-- Only invalidation changes the tokens. -/
theorem tokens_call {call : Call} {w : Tokens × W} (h : ∀ token, call ≠ .invalidate token) :
    (Tokens.peers request others call w).2.1 = w.1 := by
  cases call with
  | invalidate token => exact absurd rfl (h token)
  | _ => rfl

/-- A revoked token stays revoked, and so does the check. -/
theorem revoked_call (call : Call) (w : Tokens × W)
    (h : w.1.checksRevocation = true ∧ token ∈ w.1.revoked) :
    (Tokens.peers request others call w).2.1.checksRevocation = true ∧
      token ∈ (Tokens.peers request others call w).2.1.revoked := by
  cases call with
  | invalidate other => exact ⟨h.1, NameSet.mem_insert.2 (.inr h.2)⟩
  | _ => exact h

/-- Operations other than logout leave the tokens as they are, at the end and at every exchange. -/
theorem tokens_perform {op : Operation} (hlogout : op ≠ .logout) :
    (s.perform (Tokens.peers request others) config op).2.world.1 = s.world.1 ∧
      ∀ e ∈ (s.perform (Tokens.peers request others) config op).2.exchangesSince s,
        ∃ w, w.1 = s.world.1 ∧ e.reply = (Tokens.peers request others e.call w).1 := by
  have hcalls : ∀ call w, op.MayCall call → w.1 = s.world.1 →
      (Tokens.peers request others call w).2.1 = s.world.1 := by
    intro call w hcall hw
    refine (tokens_call fun token he => ?_).trans hw
    rw [he] at hcall
    exact hlogout hcall
  obtain ⟨hend, hexchanges⟩ :=
    (perform_talks op s).exchanges (P := fun w => w.1 = s.world.1) hcalls rfl
  exact ⟨hend, fun e he => (hexchanges e he).2⟩

/-- Logout revokes the token that the request has under the guard in force. -/
theorem tokens_logout :
    (s.logout (Tokens.peers request others)).2.world.1 =
      match request.token? (candidates s.guardPrefix) with
      | none => s.world.1
      | some token => s.world.1.revoke token := by
  have hfind : s.findToken (Tokens.peers request others) =
      (request.token? (candidates s.guardPrefix),
        (s.findToken (Tokens.peers request others)).2) := rfl
  rw [snd_logout, invalidateToken, hfind]
  cases request.token? (candidates s.guardPrefix) <;> rfl

theorem checksRevocation_after (ops : List Operation) :
    (s.after (Tokens.peers request others) config ops).world.1.checksRevocation =
      s.world.1.checksRevocation := by
  refine ((after_talks ops).exchanges
    (P := fun w : Tokens × W => w.1.checksRevocation = s.world.1.checksRevocation) ?_ rfl).1
  intro call w _ hw
  cases call <;> exact hw

/-- A revoked token is not decoded again. -/
theorem not_decoded_of_revoked (hcheck : s.world.1.checksRevocation = true)
    (hrevoked : token ∈ s.world.1.revoked) (ops : List Operation) (p : Payload) :
    ⟨.decode token, .ok p⟩ ∉
      (s.after (Tokens.peers request others) config ops).exchangesSince s := by
  intro he
  obtain ⟨-, w, hw, hreply⟩ := ((after_talks ops).exchanges
    (P := fun w => w.1.checksRevocation = true ∧ token ∈ w.1.revoked)
    (fun call w _ hw => revoked_call call w hw) ⟨hcheck, hrevoked⟩).2 _ he
  exact Tokens.notMem_revoked_of_decode hw.1 hreply.symm hw.2

/-! ## The token behind the payload -/

/-- A payload is remembered, and the request has a token under the guard that is not revoked. -/
structure Backed (request : Request) (token guardPrefix : String) (s : Session (Tokens × W)) :
    Prop where
  remembered : ∃ p, s.payload = some p
  located : request.token? (candidates guardPrefix) = some token
  unrevoked : token ∉ s.world.1.revoked

theorem backed_of_decodes {op : Operation} (hcheck : s.world.1.checksRevocation = true)
    (h : Decodes token guardPrefix s (s.perform (Tokens.peers request others) config op).2) :
    Backed request token guardPrefix (s.perform (Tokens.peers request others) config op).2 := by
  obtain ⟨⟨p, he⟩, hguard⟩ := h
  obtain ⟨hpayload, hfind⟩ := perform_decoded he
  have hop : op.NeedsPayload := (exchange_of_mem he).1
  have hlogout : op ≠ .logout := by
    rintro rfl
    exact hop
  obtain ⟨hsame, hexchanges⟩ := tokens_perform hlogout
  refine ⟨⟨p, hpayload⟩, ?_, ?_⟩
  · obtain ⟨w, -, hreply⟩ := hexchanges _ hfind
    rw [← hguard]
    exact hreply.symm
  · obtain ⟨w, hw, hreply⟩ := hexchanges _ he
    rw [hsame, ← hw]
    exact Tokens.notMem_revoked_of_decode (by rw [hw]; exact hcheck) hreply.symm

theorem Backed.perform {op : Operation} (hop : op.KeepsPayload)
    (h : Backed request token guardPrefix s) :
    Backed request token guardPrefix (s.perform (Tokens.peers request others) config op).2 := by
  obtain ⟨p, hp⟩ := h.remembered
  refine ⟨⟨p, payload_perform hop.1 hop.2 hp⟩, h.located, ?_⟩
  rw [(tokens_perform hop.2).1]
  exact h.unrevoked

/-- The token found at logout is the one behind the payload, or another one is revoked. -/
theorem Backed.mem_revoked_logout_iff (h : Backed request token guardPrefix s) :
    token ∈ (s.logout (Tokens.peers request others)).2.world.1.revoked ↔
      request.token? (candidates s.guardPrefix) = some token := by
  rw [tokens_logout]
  cases request.token? (candidates s.guardPrefix) with
  | none => simpa using h.unrevoked
  | some found =>
    constructor
    · intro hmem
      rcases NameSet.mem_insert.1 hmem with rfl | hmem
      · rfl
      · exact absurd hmem h.unrevoked
    · intro hfound
      cases hfound
      exact NameSet.mem_insert.2 (.inl rfl)

/-- **Logout revokes the token that it finds again.** Let the tokens check revocations, and let the
remembered payload be one that was decoded from the token under a guard. A logout then revokes the
token exactly if the request has that token under the guard in force, and so it does under the
guard of the decoding. Once revoked, the token is not decoded by any later operation. -/
theorem logout_revokes_iff {tokens : Tokens} {world : W} {ops : List Operation}
    (hcheck : tokens.checksRevocation = true)
    (h : Since (Tokens.peers request others) config (.ofConfig config (tokens, world))
      (Decodes token guardPrefix) Operation.KeepsPayload ops) :
    let start : Session (Tokens × W) := .ofConfig config (tokens, world)
    let atLogout := start.after (Tokens.peers request others) config ops
    let ended := start.after (Tokens.peers request others) config (ops ++ [.logout])
    (token ∈ ended.world.1.revoked ↔
        request.token? (candidates atLogout.guardPrefix) = some token) ∧
      (atLogout.guardPrefix = guardPrefix → token ∈ ended.world.1.revoked) ∧
      (token ∈ ended.world.1.revoked → ∀ more p, ⟨.decode token, .ok p⟩ ∉
        (ended.after (Tokens.peers request others) config more).exchangesSince ended) := by
  intro start atLogout ended
  have hchecked : ∀ ops, (start.after (Tokens.peers request others) config
      ops).world.1.checksRevocation = true :=
    fun ops => (checksRevocation_after ops).trans hcheck
  have hbacked : Backed request token guardPrefix atLogout :=
    h.holds (fun ops _ hdecodes => backed_of_decodes (hchecked ops) hdecodes)
      fun _ _ hop hs => hs.perform hop
  have hended : ended = (atLogout.logout (Tokens.peers request others)).2 := after_concat ops _
  have hiff : token ∈ ended.world.1.revoked ↔
      request.token? (candidates atLogout.guardPrefix) = some token := by
    rw [hended]
    exact hbacked.mem_revoked_logout_iff
  refine ⟨hiff, fun hguard => hiff.2 (by rw [hguard]; exact hbacked.located), ?_⟩
  intro hrevoked more p
  exact not_decoded_of_revoked (hchecked (ops ++ [.logout])) hrevoked more p

/-- A token that was decoded without a guard is revoked by a logout without a guard. -/
theorem logout_revokes_authorization :
    "t" ∈ ((ofConfig .standard (Tokens.register default "t" ⟨[]⟩, .ofRequest default true)).after
      (Tokens.peers ⟨[⟨"authorization", "t"⟩], []⟩ Memory.peers) .standard
      ([] ++ [.auth] ++ [.logout])).world.1.revoked := by
  have hdecoded : Since (Tokens.peers ⟨[⟨"authorization", "t"⟩], []⟩ Memory.peers) .standard
      (.ofConfig .standard (Tokens.register default "t" ⟨[]⟩, .ofRequest default true))
      (Decodes "t" "") Operation.KeepsPayload ([] ++ [.auth]) :=
    .now ⟨⟨⟨[]⟩, by decide +kernel⟩, by decide +kernel⟩
  exact (logout_revokes_iff rfl hdecoded).2.1 (by decide +kernel)

/-- A token can outlive its logout: it was decoded without a guard, a guard is set, and under that
guard the request has no token to revoke. -/
theorem token_outlives_logout :
    ¬ ∀ (W : Type) (request : Request) (others : Collaborators W) (config : AuthConfig)
      (tokens : Tokens) (world : W) (token guardPrefix : String) (ops : List Operation),
      tokens.checksRevocation = true →
      Since (Tokens.peers request others) config (.ofConfig config (tokens, world))
        (Decodes token guardPrefix) Operation.KeepsPayload ops →
      (((ofConfig config (tokens, world)).after (Tokens.peers request others) config ops).logout
        (Tokens.peers request others)).1 = .ok () →
      token ∈ (((ofConfig config (tokens, world)).after (Tokens.peers request others) config
        ops).logout (Tokens.peers request others)).2.world.1.revoked := by
  intro hall
  have hdecoded : Since (Tokens.peers ⟨[⟨"authorization", "t"⟩], []⟩ Memory.peers) .standard
      (.ofConfig .standard (Tokens.register default "t" ⟨[]⟩, .ofRequest default true))
      (Decodes "t" "") Operation.KeepsPayload ([] ++ [.auth] ++ [.setGuard (some "admin_")]) :=
    .later (.now ⟨⟨⟨[]⟩, by decide +kernel⟩, by decide +kernel⟩) ⟨id, nofun⟩
  have hrevoked := hall _ _ _ _ _ _ _ _ _ rfl hdecoded (by decide +kernel)
  exact absurd hrevoked (by decide +kernel)

end

end Session

end Clearance
