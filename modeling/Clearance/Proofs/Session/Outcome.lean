import Clearance.Session.Operation

/-!
# Outcomes of resolution

What comes of resolving a payload and a principal, one equation for each course that the calls can
take. Whatever the course, the answer is what the session remembers afterwards
(`payload_resolvePayload`, `principal_resolvePrincipal`), and logout leaves nothing to remember
(`payload_logout`, `principal_logout`).
-/

namespace Clearance.Session

variable {W : Type} {peers : Collaborators W} {config : AuthConfig} {s : Session W}

/-! ## Payloads -/

section
variable {p : Payload} {token : String} {fault : DecodeFault}

theorem resolvePayload_of_some (h : s.payload = some p) :
    s.resolvePayload peers = (some p, s) := by
  unfold resolvePayload
  rw [h]

theorem resolvePayload_of_find (h : s.payload = none) (hfind : (s.findToken peers).1 = none) :
    s.resolvePayload peers = (none, (s.findToken peers).2) := by
  unfold resolvePayload
  rw [h]
  rcases hr : s.findToken peers with ⟨r, t⟩
  rw [hr] at hfind
  cases hfind
  rfl

theorem resolvePayload_of_error (h : s.payload = none)
    (hfind : (s.findToken peers).1 = some token)
    (hdecode : ((s.findToken peers).2.ask peers (.decode token)).1 = .error fault) :
    s.resolvePayload peers = (none, ((s.findToken peers).2.ask peers (.decode token)).2) := by
  unfold resolvePayload
  rw [h]
  rcases hr : s.findToken peers with ⟨r, t⟩
  rw [hr] at hfind hdecode
  cases hfind
  rcases hd : t.ask peers (.decode token) with ⟨a, u⟩
  rw [hd] at hdecode
  cases hdecode
  simp only [hd]

theorem resolvePayload_of_ok (h : s.payload = none)
    (hfind : (s.findToken peers).1 = some token)
    (hdecode : ((s.findToken peers).2.ask peers (.decode token)).1 = .ok p) :
    s.resolvePayload peers =
      (some p, ((s.findToken peers).2.ask peers (.decode token)).2.setPayload p) := by
  unfold resolvePayload
  rw [h]
  rcases hr : s.findToken peers with ⟨r, t⟩
  rw [hr] at hfind hdecode
  cases hfind
  rcases hd : t.ask peers (.decode token) with ⟨a, u⟩
  rw [hd] at hdecode
  cases hdecode
  simp only [hd]
  rfl

end

/-- The courses of a resolution. -/
theorem resolvePayload_cases {motive : Option Payload × Session W → Prop}
    (remembered : ∀ p, s.payload = some p → motive (some p, s))
    (searched : s.payload = none → (s.findToken peers).1 = none →
      motive (none, (s.findToken peers).2))
    (refused : ∀ token fault, s.payload = none → (s.findToken peers).1 = some token →
      ((s.findToken peers).2.ask peers (.decode token)).1 = .error fault →
      motive (none, ((s.findToken peers).2.ask peers (.decode token)).2))
    (decoded : ∀ token p, s.payload = none → (s.findToken peers).1 = some token →
      ((s.findToken peers).2.ask peers (.decode token)).1 = .ok p →
      motive (some p, ((s.findToken peers).2.ask peers (.decode token)).2.setPayload p)) :
    motive (s.resolvePayload peers) := by
  cases h : s.payload with
  | some p =>
    rw [resolvePayload_of_some h]
    exact remembered p h
  | none =>
    cases hfind : (s.findToken peers).1 with
    | none =>
      rw [resolvePayload_of_find h hfind]
      exact searched h hfind
    | some token =>
      cases hdecode : ((s.findToken peers).2.ask peers (.decode token)).1 with
      | error fault =>
        rw [resolvePayload_of_error h hfind hdecode]
        exact refused token fault h hfind hdecode
      | ok p =>
        rw [resolvePayload_of_ok h hfind hdecode]
        exact decoded token p h hfind hdecode

/-- The answer is what is remembered afterwards. -/
theorem payload_resolvePayload :
    (s.resolvePayload peers).2.payload = (s.resolvePayload peers).1 := by
  refine resolvePayload_cases (motive := fun r => r.2.payload = r.1) ?_ ?_ ?_ ?_
  · intro p h
    exact h
  · intro h _
    exact h
  · intro _ _ h _ _
    exact h
  · intro _ _ _ _ _
    rfl

theorem principal_resolvePayload : (s.resolvePayload peers).2.principal = s.principal := by
  refine resolvePayload_cases (motive := fun r => r.2.principal = s.principal) ?_ ?_ ?_ ?_
  all_goals
    intros
    rfl

/-! ## Principals -/

/-- What the principal records are asked for. -/
def wanted (config : AuthConfig) (key : String) (relations : List String) : Lookup :=
  ⟨config.principalModel, config.storeKey, key, relations⟩

/-- Remembers a principal. -/
def setPrincipal (u : Principal) (s : Session W) : Session W := { s with principal := some u }

/-- There is no principal under the lookup key. -/
def notFound (config : AuthConfig) (key : String) : Fault :=
  .principalNotFound config.principalModel config.storeKey key

section
variable {relations : List String} {u : Principal} {p : Payload} {key : String} {t : Session W}

theorem resolvePrincipal_of_some (h : s.principal = some u) :
    s.resolvePrincipal peers config relations = (.ok (some u), s) := by
  unfold resolvePrincipal
  rw [h]

theorem resolvePrincipal_of_payload (h : s.principal = none)
    (hpayload : s.resolvePayload peers = (none, t)) :
    s.resolvePrincipal peers config relations = (.ok none, t) := by
  unfold resolvePrincipal
  rw [h, hpayload]

theorem resolvePrincipal_of_key (h : s.principal = none)
    (hpayload : s.resolvePayload peers = (some p, t))
    (hkey : p.key? config.identityClaim = none) :
    s.resolvePrincipal peers config relations = (.error (notFound config ""), t) := by
  unfold resolvePrincipal
  rw [h, hpayload]
  simp only [hkey]
  rfl

/-- With a payload that has a key the outcome is that of the lookup. -/
theorem resolvePrincipal_of_lookup (h : s.principal = none)
    (hpayload : s.resolvePayload peers = (some p, t))
    (hkey : p.key? config.identityClaim = some key) :
    s.resolvePrincipal peers config relations =
      match t.ask peers (.lookup (wanted config key relations)) with
      | (.error fault, t) => (.error fault, t)
      | (.ok none, t) => (.error (notFound config key), t)
      | (.ok (some u), t) => (.ok (some u), t.setPrincipal u) := by
  unfold resolvePrincipal
  rw [h, hpayload]
  simp only [hkey]
  rfl

end

/-- The courses of a resolution. -/
theorem resolvePrincipal_cases {relations : List String}
    {motive : Except Fault (Option Principal) × Session W → Prop}
    (remembered : ∀ u, s.principal = some u → motive (.ok (some u), s))
    (anonymous : ∀ t, s.principal = none → s.resolvePayload peers = (none, t) →
      motive (.ok none, t))
    (keyless : ∀ p t, s.principal = none → s.resolvePayload peers = (some p, t) →
      p.key? config.identityClaim = none → motive (.error (notFound config ""), t))
    (failed : ∀ p t key fault, s.principal = none → s.resolvePayload peers = (some p, t) →
      p.key? config.identityClaim = some key →
      (t.ask peers (.lookup (wanted config key relations))).1 = .error fault →
      motive (.error fault, (t.ask peers (.lookup (wanted config key relations))).2))
    (missed : ∀ p t key, s.principal = none → s.resolvePayload peers = (some p, t) →
      p.key? config.identityClaim = some key →
      (t.ask peers (.lookup (wanted config key relations))).1 = .ok none →
      motive (.error (notFound config key),
        (t.ask peers (.lookup (wanted config key relations))).2))
    (recorded : ∀ p t key u, s.principal = none → s.resolvePayload peers = (some p, t) →
      p.key? config.identityClaim = some key →
      (t.ask peers (.lookup (wanted config key relations))).1 = .ok (some u) →
      motive (.ok (some u),
        (t.ask peers (.lookup (wanted config key relations))).2.setPrincipal u)) :
    motive (s.resolvePrincipal peers config relations) := by
  cases h : s.principal with
  | some u =>
    rw [resolvePrincipal_of_some h]
    exact remembered u h
  | none =>
    rcases hpayload : s.resolvePayload peers with ⟨_ | p, t⟩
    · rw [resolvePrincipal_of_payload h hpayload]
      exact anonymous t h hpayload
    · cases hkey : p.key? config.identityClaim with
      | none =>
        rw [resolvePrincipal_of_key h hpayload hkey]
        exact keyless p t h hpayload hkey
      | some key =>
        have hfailed := failed p t key
        have hmissed := missed p t key
        have hrecorded := recorded p t key
        rw [resolvePrincipal_of_lookup h hpayload hkey]
        rcases hreply : t.ask peers (.lookup (wanted config key relations)) with
          ⟨fault | (_ | u), t'⟩
        · rw [hreply] at hfailed
          exact hfailed fault h hpayload hkey rfl
        · rw [hreply] at hmissed
          exact hmissed h hpayload hkey rfl
        · rw [hreply] at hrecorded
          exact hrecorded u h hpayload hkey rfl

/-- A principal that is answered is the one remembered afterwards. -/
theorem principal_resolvePrincipal {relations : List String} {found : Option Principal}
    (hok : (s.resolvePrincipal peers config relations).1 = .ok found) :
    (s.resolvePrincipal peers config relations).2.principal = found := by
  revert hok
  refine resolvePrincipal_cases (motive := fun r => r.1 = .ok found → r.2.principal = found)
    ?_ ?_ ?_ ?_ ?_ ?_
  · intro u h hok
    cases hok
    exact h
  · intro t h hpayload hok
    cases hok
    have hsame : (s.resolvePayload peers).2.principal = s.principal := principal_resolvePayload
    rw [hpayload, h] at hsame
    exact hsame
  · intro _ _ _ _ _ hok
    cases hok
  · intro _ _ _ _ _ _ _ _ hok
    cases hok
  · intro _ _ _ _ _ _ _ hok
    cases hok
  · intro _ _ _ u _ _ _ _ hok
    cases hok
    rfl

/-- With a payload there is a principal or a fault. -/
theorem resolvePrincipal_ne_none {relations : List String} {p : Payload}
    (hp : s.payload = some p) : (s.resolvePrincipal peers config relations).1 ≠ .ok none := by
  refine resolvePrincipal_cases (motive := fun r => r.1 ≠ .ok none) ?_ ?_ ?_ ?_ ?_ ?_
  · exact fun _ _ => nofun
  · intro t _ hpayload
    rw [resolvePayload_of_some hp] at hpayload
    cases hpayload
  · exact fun _ _ _ _ _ => nofun
  · exact fun _ _ _ _ _ _ _ _ => nofun
  · exact fun _ _ _ _ _ _ _ => nofun
  · exact fun _ _ _ _ _ _ _ _ => nofun

/-- Without a principal and a fault there is no payload. -/
theorem resolvePayload_of_anonymous {relations : List String}
    (h : (s.resolvePrincipal peers config relations).1 = .ok none) :
    (s.resolvePayload peers).1 = none := by
  revert h
  refine resolvePrincipal_cases
    (motive := fun r => r.1 = .ok none → (s.resolvePayload peers).1 = none) ?_ ?_ ?_ ?_ ?_ ?_
  · exact fun _ _ => nofun
  · intro t _ ht _
    rw [ht]
  · exact fun _ _ _ _ _ => nofun
  · exact fun _ _ _ _ _ _ _ _ => nofun
  · exact fun _ _ _ _ _ _ _ => nofun
  · exact fun _ _ _ _ _ _ _ _ => nofun

/-! ## Login -/

/-- The courses of a login. -/
theorem login_cases {motive : Except Fault (Option Principal) × Session W → Prop}
    (failed : ∀ fault t, s.resolvePrincipal peers config [] = (.error fault, t) →
      motive (.error fault, t))
    (anonymous : ∀ t, s.resolvePrincipal peers config [] = (.ok none, t) → motive (.ok none, t))
    (refused : ∀ u t fault, s.resolvePrincipal peers config [] = (.ok (some u), t) →
      (t.ask peers (.login u)).1 = .error fault →
      motive (.error fault, (t.ask peers (.login u)).2))
    (bound : ∀ u t, s.resolvePrincipal peers config [] = (.ok (some u), t) →
      (t.ask peers (.login u)).1 = .ok () → motive (.ok (some u), (t.ask peers (.login u)).2)) :
    motive (s.login peers config) := by
  unfold login
  rcases hr : s.resolvePrincipal peers config [] with ⟨fault | (_ | u), t⟩
  · exact failed fault t hr
  · exact anonymous t hr
  · have hrefused := refused u t
    have hbound := bound u t
    rcases hb : t.ask peers (.login u) with ⟨fault | _, t'⟩
    · rw [hb] at hrefused
      simp only [hb]
      exact hrefused fault hr rfl
    · rw [hb] at hbound
      simp only [hb]
      exact hbound hr rfl

/-! ## Logout -/

/-- The session after a logout, whatever failed. -/
theorem snd_logout :
    (s.logout peers).2 = ((s.invalidateToken peers).2.forget.ask peers .logout).2 := by
  unfold logout
  rcases s.invalidateToken peers with ⟨_ | _, t⟩ <;> rfl

/-- A logout succeeds only if the token was invalidated. -/
theorem invalidateToken_of_logout (hok : (s.logout peers).1 = .ok ()) :
    (s.invalidateToken peers).1 = .ok () := by
  unfold logout at hok
  rcases hr : s.invalidateToken peers with ⟨fault | _, t⟩
  · rw [hr] at hok
    cases hok
  · rfl

theorem invalidateToken_of_find {token : String} (hfind : (s.findToken peers).1 = some token) :
    s.invalidateToken peers = (s.findToken peers).2.ask peers (.invalidate token) := by
  unfold invalidateToken
  rcases hr : s.findToken peers with ⟨r, t⟩
  rw [hr] at hfind
  cases hfind
  rfl

theorem payload_logout : (s.logout peers).2.payload = none := by
  rw [snd_logout]
  rfl

theorem principal_logout : (s.logout peers).2.principal = none := by
  rw [snd_logout]
  rfl

end Clearance.Session
