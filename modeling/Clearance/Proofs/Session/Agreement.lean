import Clearance.Memory.World
import Clearance.Proofs.Session.History
import Mathlib.Data.List.Induction

/-!
# Agreement of payload and principal

Payload and principal are remembered apart, and the remembered principal is answered before the
payload is asked for. With principal records in memory `principal_matches_payload` says what holds
of a principal that a session shows together with a payload: it is of the configured model, and it
is the record under the key of a payload that was remembered when the principal was found. That is
the payload shown, unless another payload was handed over since then.
-/

namespace Clearance

namespace Records

/-- The collaborators when the principal records are in memory and all else is with others. -/
def peers {W : Type} (others : Collaborators W) : Collaborators (Records × W)
  | .lookup wanted, w => (.ok (w.1.find wanted).1, ((w.1.find wanted).2, w.2))
  | .find names, w => others.beside Records (.find names) w
  | .decode token, w => others.beside Records (.decode token) w
  | .invalidate token, w => others.beside Records (.invalidate token) w
  | .login u, w => others.beside Records (.login u) w
  | .logout, w => others.beside Records .logout w

/-- A record that is found is of the wanted model and has the wanted key. -/
theorem find_eq_some {r : Records} {wanted : Lookup} {u : Principal}
    (h : (r.find wanted).1 = some u) :
    u.model = wanted.model ∧ u.attributeKey? wanted.field = some wanted.value := by
  obtain ⟨stored, hstored, rfl⟩ := Option.map_eq_some_iff.1 h
  have hfits : fits wanted stored = true := List.find?_some hstored
  rw [fits, Bool.and_eq_true, beq_iff_eq, beq_iff_eq] at hfits
  exact hfits

end Records

namespace Session

/-! ## Where a principal comes from -/

section
variable {W : Type} {peers : Collaborators W} {config : AuthConfig} {start : Session W}

/-- A remembered principal was found since the last logout. -/
theorem since_finds {ops : List Operation} {u : Principal} (hstart : start.principal = none)
    (hu : (start.after peers config ops).principal = some u) :
    ∃ q, Since peers config start (Finds q u) (· ≠ .logout) ops := by
  -- The last operation found the principal, or it was remembered before and was not forgotten.
  induction ops using List.reverseRecOn with
  | nil =>
    rw [after_nil, hstart] at hu
    cases hu
  | append_singleton ops op ih =>
    rw [after_concat] at hu
    rcases kept_or_recorded hu with ⟨hbefore, hlogout⟩ | ⟨hbefore, q, -, -, hq, -⟩
    · obtain ⟨q, hq⟩ := ih hbefore
      exact ⟨q, hq.later hlogout⟩
    · refine ⟨q, .now ?_⟩
      rw [after_concat]
      exact ⟨hbefore, hu, hq⟩

/-- The payload with which a principal was found stays as long as no other is handed over. -/
theorem payload_of_finds {ops : List Operation} {q : Payload} {u : Principal}
    (h : Since peers config start (Finds q u) Operation.KeepsPayload ops) :
    (start.after peers config ops).payload = some q :=
  h.holds (P := fun s => s.payload = some q) (fun _ _ hfinds => hfinds.2.2)
    fun _ _ hop hq => payload_perform hop.1 hop.2 hq

/-! ## Showing both -/

/-- At the end of a history the session answers with the payload and with the principal, one right
after the other, or it binds the principal at login while the payload is remembered. -/
inductive Shows (peers : Collaborators W) (config : AuthConfig) (start : Session W) :
    List Operation → Payload → Principal → Prop where
  /-- The payload is asked for, and then the principal. -/
  | authThenUser {ops : List Operation} {relations : List String} {p : Payload} {u : Principal}
      (hauth : ((start.after peers config ops).perform peers config .auth).1 = .payload (some p))
      (huser : ((start.after peers config (ops ++ [.auth])).perform peers config
        (.user relations)).1 = .principal (.ok (some u))) :
      Shows peers config start (ops ++ [.auth] ++ [.user relations]) p u
  /-- The principal is asked for, and then the payload. -/
  | userThenAuth {ops : List Operation} {relations : List String} {p : Payload} {u : Principal}
      (huser : ((start.after peers config ops).perform peers config (.user relations)).1 =
        .principal (.ok (some u)))
      (hauth : ((start.after peers config (ops ++ [.user relations])).perform peers config
        .auth).1 = .payload (some p)) :
      Shows peers config start (ops ++ [.user relations] ++ [.auth]) p u
  /-- The principal is bound. -/
  | login {ops : List Operation} {p : Payload} {u : Principal} {r : Except Fault Unit}
      (hlogin : ⟨.login u, r⟩ ∈ (start.after peers config (ops ++ [.login])).exchangesSince
        (start.after peers config ops))
      (hp : (start.after peers config (ops ++ [.login])).payload = some p) :
      Shows peers config start (ops ++ [.login]) p u

theorem payload_auth {s : Session W} {p : Payload}
    (h : (s.perform peers config .auth).1 = .payload (some p)) :
    (s.perform peers config .auth).2.payload = some p := by
  have hanswer : Answer.payload (s.perform peers config .auth).2.payload = .payload (some p) :=
    (answer_of_payload rfl s).symm.trans h
  injection hanswer

/-- What a session shows it remembers. -/
theorem Shows.remembered {ops : List Operation} {p : Payload} {u : Principal}
    (h : Shows peers config start ops p u) :
    (start.after peers config ops).payload = some p ∧
      (start.after peers config ops).principal = some u := by
  cases h with
  | authThenUser hauth huser =>
    have hp := payload_auth hauth
    rw [after_concat, after_concat] at *
    exact ⟨payload_perform id nofun hp, principal_of_answer huser⟩
  | userThenAuth huser hauth =>
    have hu := principal_of_answer huser
    rw [after_concat, after_concat] at *
    exact ⟨payload_auth hauth, principal_perform nofun hu⟩
  | login hlogin hp =>
    refine ⟨hp, ?_⟩
    rw [after_concat] at hlogin ⊢
    exact perform_bound hlogin

end

/-! ## Records in memory -/

section
variable {W : Type} {others : Collaborators W} {config : AuthConfig} {p q : Payload}
variable {u : Principal}

/-- A principal that is found is of the configured model and has the key of the payload. -/
theorem matches_of_finds {s : Session (Records × W)} {op : Operation}
    (h : Finds q u s (s.perform (Records.peers others) config op).2) :
    u.model = config.principalModel ∧
      u.attributeKey? config.storeKey = q.key? config.identityClaim := by
  obtain ⟨hnone, hu, hq⟩ := h
  obtain ⟨q', key, relations, hq', hkey, he⟩ := perform_recorded hnone hu
  obtain ⟨-, w, hreply⟩ := exchange_of_mem he
  have hfound : Except.ok (some u) =
      Except.ok (ε := Fault) (w.1.find (wanted config key relations)).1 := hreply
  injection hfound with hfound
  obtain ⟨hmodel, hattribute⟩ := Records.find_eq_some hfound.symm
  rw [hq] at hq'
  cases hq'
  exact ⟨hmodel, hattribute.trans hkey.symm⟩

/-- **A principal matches the payload it was found for.** A principal that a session shows with a
payload is of the configured model, and since the last logout it was found for a remembered payload
whose identity claim is its key. If no other payload was handed over since it was found, it has the
key of the payload it is shown with. -/
theorem principal_matches_payload {records : Records} {world : W} {ops : List Operation}
    (h : Shows (Records.peers others) config (.ofConfig config (records, world)) ops p u) :
    u.model = config.principalModel ∧
      (∃ q, Since (Records.peers others) config (.ofConfig config (records, world))
          (Finds q u) (· ≠ .logout) ops ∧
        u.attributeKey? config.storeKey = q.key? config.identityClaim) ∧
      (∀ q, Since (Records.peers others) config (.ofConfig config (records, world))
          (Finds q u) Operation.KeepsPayload ops →
        u.attributeKey? config.storeKey = p.key? config.identityClaim) := by
  obtain ⟨hp, hu⟩ := h.remembered
  obtain ⟨q, hq⟩ := since_finds rfl hu
  have hmatches : u.model = config.principalModel ∧
      u.attributeKey? config.storeKey = q.key? config.identityClaim :=
    hq.holds (P := fun _ => _) (fun _ _ hfinds => matches_of_finds hfinds) fun _ _ _ h => h
  refine ⟨hmatches.1, ⟨q, hq, hmatches.2⟩, fun q' hq' => ?_⟩
  have hkey : u.attributeKey? config.storeKey = q'.key? config.identityClaim :=
    hq'.holds (P := fun _ => _) (fun _ _ hfinds => (matches_of_finds hfinds).2) fun _ _ _ h => h
  rw [payload_of_finds hq'] at hp
  cases hp
  exact hkey

/-- The record of the user `u-1` is shown with the payload that names `u-1`, and its key is that
name. -/
theorem user_shown_with_own_payload :
    Shows (Records.peers Memory.peers) .standard
        (.ofConfig .standard (⟨[⟨"User", [("auth_id", .text "u-1")], .empty⟩], 0⟩,
          .ofRequest default true))
        ([.setAuth ⟨[("authId", .text "u-1")]⟩] ++ [.user []] ++ [.auth])
        ⟨[("authId", .text "u-1")]⟩ ⟨"User", [("auth_id", .text "u-1")], .empty⟩ ∧
      Principal.attributeKey? ⟨"User", [("auth_id", .text "u-1")], .empty⟩ "auth_id" =
        Payload.key? ⟨[("authId", .text "u-1")]⟩ "authId" := by
  have hshows : Shows (Records.peers Memory.peers) .standard
      (.ofConfig .standard (⟨[⟨"User", [("auth_id", .text "u-1")], .empty⟩], 0⟩,
        .ofRequest default true))
      ([.setAuth ⟨[("authId", .text "u-1")]⟩] ++ [.user []] ++ [.auth])
      ⟨[("authId", .text "u-1")]⟩ ⟨"User", [("auth_id", .text "u-1")], .empty⟩ :=
    .userThenAuth (by decide +kernel) (by decide +kernel)
  refine ⟨hshows, (principal_matches_payload hshows).2.2 ⟨[("authId", .text "u-1")]⟩ ?_⟩
  refine .later (.now ⟨?_, ?_, ?_⟩) ⟨id, nofun⟩ <;> decide +kernel

/-- Payload and principal can disagree: the principal was found for a payload that names `u-1`, and
then a payload is handed over that names `u-2`. -/
theorem principal_survives_injection :
    ¬ ∀ (W : Type) (others : Collaborators W) (config : AuthConfig) (records : Records)
      (world : W) (ops : List Operation) (p : Payload) (u : Principal),
      Shows (Records.peers others) config (.ofConfig config (records, world)) ops p u →
      u.model = config.principalModel ∧
        u.attributeKey? config.storeKey = p.key? config.identityClaim := by
  intro hall
  have hshows : Shows (Records.peers Memory.peers) .standard
      (.ofConfig .standard (⟨[⟨"User", [("auth_id", .text "u-1")], .empty⟩], 0⟩,
        .ofRequest default true))
      ([.setAuth ⟨[("authId", .text "u-1")]⟩, .user [], .setAuth ⟨[("authId", .text "u-2")]⟩] ++
        [.auth] ++ [.user []])
      ⟨[("authId", .text "u-2")]⟩ ⟨"User", [("auth_id", .text "u-1")], .empty⟩ :=
    .authThenUser (by decide +kernel) (by decide +kernel)
  exact absurd (hall _ _ _ _ _ _ _ _ hshows).2 (by decide +kernel)

end

end Session

end Clearance
