import Clearance.Memory.World
import Clearance.Proofs.Session.Freshness

/-!
# The log of a session

Session events that are recorded in memory are a log of logins and logouts. `Logged` says what the
log of a list of operations should be: one entry for each logout, and one for each login that
succeeds with a credential, with the principal that the session answers right after it.
`events_faithful` says that this is what is recorded, whatever the other collaborators answer. A
session forgets its principal at logout only, so between two logouts all logins are of one
principal (`Logged.same_principal`).
-/

namespace Clearance

/-- The collaborators when session events are recorded and all else is with others. -/
def Event.peers {W : Type} (others : Collaborators W) : Collaborators (List Event × W)
  | .login u, w => (.ok (), (w.1 ++ [.login u], w.2))
  | .logout, w => (.ok (), (w.1 ++ [.logout], w.2))
  | .find names, w => others.beside (List Event) (.find names) w
  | .decode token, w => others.beside (List Event) (.decode token) w
  | .lookup wanted, w => others.beside (List Event) (.lookup wanted) w
  | .invalidate token, w => others.beside (List Event) (.invalidate token) w

/-- The collaborators in memory record session events in this way while the session layer does not
fail. -/
theorem Memory.peers_eq_recorded {m : Memory} (hlogin : m.failures.login = none)
    (hlogout : m.failures.logout = none) (call : Call) :
    let recorded := Event.peers Memory.peers call (m.events, m)
    Memory.peers call m = (recorded.1, { recorded.2.2 with events := recorded.2.1 }) := by
  cases call with
  | find names => rfl
  | decode token => rfl
  | lookup wanted =>
    simp only [Memory.peers, Event.peers, Collaborators.beside, Memory.answerUnless]
    split <;> rfl
  | invalidate token =>
    simp only [Memory.peers, Event.peers, Collaborators.beside, Memory.answerUnless]
    split <;> rfl
  | login u => simp only [Memory.peers, Event.peers, Memory.answerUnless, hlogin]
  | logout => simp only [Memory.peers, Event.peers, Memory.answerUnless, hlogout]

namespace Session

/-! ## The log of operations -/

section
variable {W : Type} {peers : Collaborators W} {config : AuthConfig} {s : Session W}

/-- The log that operations should leave. -/
inductive Logged (peers : Collaborators W) (config : AuthConfig) :
    Session W → List Operation → List Event → Prop where
  /-- There is no entry before the first operation. -/
  | nil {s : Session W} : Logged peers config s [] []
  /-- A logout is an entry, whatever it answers. -/
  | logout {s : Session W} {ops : List Operation} {log : List Event}
      (h : Logged peers config (s.perform peers config .logout).2 ops log) :
      Logged peers config s (.logout :: ops) (.logout :: log)
  /-- A login that succeeds with a credential is an entry with the principal that is answered right
  after it. -/
  | login {s : Session W} {ops : List Operation} {log : List Event} {p : Payload} {u : Principal}
      (hok : (s.perform peers config .login).1 = .outcome (.ok ()))
      (hcredential : (s.perform peers config .auth).1 = .payload (some p))
      (huser : ((s.perform peers config .login).2.perform peers config (.user [])).1 =
        .principal (.ok (some u)))
      (h : Logged peers config (s.perform peers config .login).2 ops log) :
      Logged peers config s (.login :: ops) (.login u :: log)
  /-- Any other operation leaves no entry, nor does a login that fails or has no credential. -/
  | silent {s : Session W} {op : Operation} {ops : List Operation} {log : List Event}
      (hlogout : op ≠ .logout)
      (hlogin : op = .login → (s.perform peers config op).1 = .outcome (.ok ()) →
        (s.perform peers config .auth).1 = .payload none)
      (h : Logged peers config (s.perform peers config op).2 ops log) :
      Logged peers config s (op :: ops) log

/-- A login that succeeds has a principal to remember, or there is no credential. -/
theorem principal_of_login (hok : (s.perform peers config .login).1 = .outcome (.ok ())) :
    (∃ u, (s.perform peers config .login).2.principal = some u) ∨
      (s.perform peers config .auth).1 = .payload none := by
  have hprincipal : ∀ found, (s.resolvePrincipal peers config []).1 = .ok found →
      (s.resolvePrincipal peers config []).2.principal = found :=
    fun _ => principal_resolvePrincipal
  revert hok
  refine login_cases (motive := fun r => Answer.outcome (r.1.map fun _ => ()) = .outcome (.ok ()) →
    (∃ u, r.2.principal = some u) ∨ (s.perform peers config .auth).1 = .payload none) ?_ ?_ ?_ ?_
  · exact fun _ _ _ => nofun
  · intro t ht _
    exact .inr (congrArg Answer.payload (resolvePayload_of_anonymous (by rw [ht])))
  · exact fun _ _ _ _ _ => nofun
  · intro u t ht _ _
    rw [ht] at hprincipal
    exact .inl ⟨u, hprincipal (some u) rfl⟩

/-- The principal that is answered right after such a login is the one remembered. -/
theorem principal_of_user_after_login {p : Payload} {u : Principal}
    (hok : (s.perform peers config .login).1 = .outcome (.ok ()))
    (hcredential : (s.perform peers config .auth).1 = .payload (some p))
    (huser : ((s.perform peers config .login).2.perform peers config (.user [])).1 =
      .principal (.ok (some u))) :
    (s.perform peers config .login).2.principal = some u := by
  rcases principal_of_login hok with ⟨v, hv⟩ | hnone
  · rw [answer_of_principal hv] at huser
    cases huser
    exact hv
  · rw [hcredential] at hnone
    cases hnone

/-- As long as no session ends, every login is of the principal that is remembered. -/
theorem Logged.login_eq {ops : List Operation} {log between later : List Event} {u : Principal}
    (h : Logged peers config s ops log) (hu : s.principal = some u)
    (hlog : log = between ++ later) (hbetween : .logout ∉ between) :
    ∀ v, .login v ∈ between → v = u := by
  induction h generalizing between with
  | nil =>
    intro v hv
    rw [(List.append_eq_nil_iff.1 hlog.symm).1] at hv
    exact absurd hv List.not_mem_nil
  | logout _ _ =>
    intro v hv
    cases between with
    | nil => exact absurd hv List.not_mem_nil
    | cons first between =>
      obtain ⟨rfl, -⟩ := List.cons.inj hlog
      exact absurd List.mem_cons_self hbetween
  | @login s ops log p w hok hcredential huser _ ih =>
    intro v hv
    have hafter : (s.perform peers config .login).2.principal = some u :=
      principal_perform nofun hu
    obtain rfl : u = w :=
      Option.some.inj (hafter.symm.trans (principal_of_user_after_login hok hcredential huser))
    cases between with
    | nil => exact absurd hv List.not_mem_nil
    | cons first between =>
      obtain ⟨rfl, hrest⟩ := List.cons.inj hlog
      rcases List.mem_cons.1 hv with hv | hv
      · injection hv
      · exact ih hafter hrest (fun hmem => hbetween (List.mem_cons_of_mem _ hmem)) v hv
  | silent hlogout _ _ ih => exact ih (principal_perform hlogout hu) hlog hbetween

/-- Between two logouts all logins are of one principal. -/
theorem Logged.same_principal {ops : List Operation} {log earlier between later : List Event}
    (h : Logged peers config s ops log) (hlog : log = earlier ++ between ++ later)
    (hbetween : .logout ∉ between) {u v : Principal} (hu : .login u ∈ between)
    (hv : .login v ∈ between) : u = v := by
  induction h generalizing earlier with
  | nil =>
    rw [List.append_assoc] at hlog
    obtain ⟨-, hrest⟩ := List.append_eq_nil_iff.1 hlog.symm
    rw [(List.append_eq_nil_iff.1 hrest).1] at hu
    exact absurd hu List.not_mem_nil
  | logout _ ih =>
    cases earlier with
    | nil =>
      cases between with
      | nil => exact absurd hu List.not_mem_nil
      | cons first between =>
        obtain ⟨rfl, -⟩ := List.cons.inj hlog
        exact absurd List.mem_cons_self hbetween
    | cons first earlier => exact ih (List.cons.inj hlog).2
  | @login s ops log p w hok hcredential huser h ih =>
    cases earlier with
    | nil =>
      -- From the first login on, the session remembers its principal.
      have hafter : (s.perform peers config .login).2.principal = some w :=
        principal_of_user_after_login hok hcredential huser
      have hall : ∀ x, .login x ∈ between → x = w := by
        intro x hx
        cases between with
        | nil => exact absurd hx List.not_mem_nil
        | cons first between =>
          obtain ⟨rfl, hrest⟩ := List.cons.inj hlog
          rcases List.mem_cons.1 hx with hx | hx
          · injection hx
          · exact h.login_eq hafter hrest (fun hmem => hbetween (List.mem_cons_of_mem _ hmem)) x hx
      exact (hall u hu).trans (hall v hv).symm
    | cons first earlier => exact ih (List.cons.inj hlog).2
  | silent _ _ _ ih => exact ih hlog

/-- A session that comes to a principal has a payload. -/
theorem exists_payload_of_resolvePrincipal {relations : List String} {u : Principal}
    (hs : Grounded s) (h : (s.resolvePrincipal peers config relations).1 = .ok (some u)) :
    ∃ p, (s.resolvePayload peers).1 = some p := by
  revert h
  refine resolvePrincipal_cases (motive := fun r => r.1 = .ok (some u) →
    ∃ p, (s.resolvePayload peers).1 = some p) ?_ ?_ ?_ ?_ ?_ ?_
  · intro v hv _
    cases hp : s.payload with
    | some p => exact ⟨p, by rw [resolvePayload_of_some hp]⟩
    | none =>
      rw [hs hp] at hv
      cases hv
  · exact fun _ _ _ => nofun
  · exact fun _ _ _ _ _ => nofun
  · exact fun _ _ _ _ _ _ _ _ => nofun
  · exact fun _ _ _ _ _ _ _ => nofun
  · exact fun p _ _ _ _ ht _ _ _ => ⟨p, congrArg Prod.fst ht⟩

end

/-! ## Recorded events -/

section
variable {W : Type} {others : Collaborators W} {config : AuthConfig} {op : Operation}
variable {s : Session (List Event × W)}

/-- Only a login and a logout are recorded. -/
theorem events_call {call : Call} {w : List Event × W} (hlogin : ∀ u, call ≠ .login u)
    (hlogout : call ≠ .logout) : (Event.peers others call w).2.1 = w.1 := by
  cases call with
  | login u => exact absurd rfl (hlogin u)
  | logout => exact absurd rfl hlogout
  | _ => rfl

theorem events_perform (hlogin : op ≠ .login) (hlogout : op ≠ .logout) :
    (s.perform (Event.peers others) config op).2.world.1 = s.world.1 := by
  refine ((perform_talks op s).exchanges (P := fun w => w.1 = s.world.1) ?_ rfl).1
  intro call w hcall hw
  refine (events_call (fun u he => ?_) fun he => ?_).trans hw
  · rw [he] at hcall
    exact hlogin hcall
  · rw [he] at hcall
    exact hlogout hcall

theorem events_logout :
    (s.logout (Event.peers others)).2.world.1 = s.world.1 ++ [.logout] := by
  rw [snd_logout]
  unfold invalidateToken
  rcases hr : s.findToken (Event.peers others) with ⟨_ | token, t⟩
  · exact congrArg (fun r => r.2.world.1 ++ [Event.logout]) hr.symm
  · exact congrArg (fun r => r.2.world.1 ++ [Event.logout]) hr.symm

/-- A login that comes to a principal records it. One that fails or has no credential records
nothing. -/
theorem events_login :
    (∃ u, (s.login (Event.peers others) config).1 = .ok (some u) ∧
        (s.resolvePrincipal (Event.peers others) config []).1 = .ok (some u) ∧
        (s.login (Event.peers others) config).2.principal = some u ∧
        (s.login (Event.peers others) config).2.world.1 = s.world.1 ++ [.login u]) ∨
      (s.login (Event.peers others) config).2.world.1 = s.world.1 ∧
        ((∃ fault, (s.login (Event.peers others) config).1 = .error fault) ∨
          (s.login (Event.peers others) config).1 = .ok none ∧
            (s.resolvePayload (Event.peers others)).1 = none) := by
  have huser : (s.perform (Event.peers others) config (.user [])).2.world.1 = s.world.1 :=
    events_perform nofun nofun
  have hevents : (s.resolvePrincipal (Event.peers others) config []).2.world.1 = s.world.1 := huser
  refine login_cases (motive := fun
    (r : Except Fault (Option Principal) × Session (List Event × W)) =>
    (∃ u, r.1 = .ok (some u) ∧
        (s.resolvePrincipal (Event.peers others) config []).1 = .ok (some u) ∧
        r.2.principal = some u ∧ r.2.world.1 = s.world.1 ++ [.login u]) ∨
      r.2.world.1 = s.world.1 ∧ ((∃ fault, r.1 = .error fault) ∨
        r.1 = .ok none ∧ (s.resolvePayload (Event.peers others)).1 = none)) ?_ ?_ ?_ ?_
  · intro fault t ht
    rw [ht] at hevents
    exact .inr ⟨hevents, .inl ⟨fault, rfl⟩⟩
  · intro t ht
    have hnone : (s.resolvePayload (Event.peers others)).1 = none :=
      resolvePayload_of_anonymous (congrArg Prod.fst ht)
    rw [ht] at hevents
    exact .inr ⟨hevents, .inr ⟨rfl, hnone⟩⟩
  · exact fun _ _ _ _ => nofun
  · intro u t ht _
    have hu : (s.resolvePrincipal (Event.peers others) config []).2.principal = some u :=
      principal_resolvePrincipal (congrArg Prod.fst ht)
    rw [ht] at hu hevents
    exact .inl ⟨u, rfl, congrArg Prod.fst ht, hu, congrArg (· ++ [Event.login u]) hevents⟩

/-- The events of operations are the log that they should leave. -/
theorem exists_logged (hs : Grounded s) (ops : List Operation) :
    ∃ log, (s.after (Event.peers others) config ops).world.1 = s.world.1 ++ log ∧
      Logged (Event.peers others) config s ops log := by
  induction ops generalizing s with
  | nil => exact ⟨[], (List.append_nil _).symm, .nil⟩
  | cons op ops ih =>
    obtain ⟨log, hlog, h⟩ := ih (perform_grounded op hs)
    -- The log of the rest comes after what the first operation records.
    have hrest : (s.after (Event.peers others) config (op :: ops)).world.1 =
        (s.perform (Event.peers others) config op).2.world.1 ++ log := hlog
    by_cases hlogout : op = .logout
    · subst hlogout
      refine ⟨.logout :: log, ?_, .logout h⟩
      have hnow : (s.perform (Event.peers others) config .logout).2.world.1 =
          s.world.1 ++ [.logout] := events_logout
      rw [hrest, hnow, List.append_assoc]
      rfl
    by_cases hlogin : op = .login
    · subst hlogin
      rcases events_login with ⟨u, hok, hresolved, hu, hnow⟩ | ⟨hsame, hnot⟩
      · obtain ⟨p, hp⟩ := exists_payload_of_resolvePrincipal hs hresolved
        refine ⟨.login u :: log, ?_, .login ?_ (congrArg Answer.payload hp)
          (answer_of_principal hu []) h⟩
        · have hnow' : (s.perform (Event.peers others) config .login).2.world.1 =
              s.world.1 ++ [.login u] := hnow
          rw [hrest, hnow', List.append_assoc]
          rfl
        · exact congrArg (fun r => Answer.outcome (Except.map (fun _ => ()) r)) hok
      · refine ⟨log, hrest.trans (congrArg (· ++ log) hsame), .silent hlogout (fun _ hok => ?_) h⟩
        rcases hnot with ⟨fault, hfault⟩ | ⟨-, hnone⟩
        · have hanswer : (s.perform (Event.peers others) config .login).1 =
              .outcome (.error fault) :=
            congrArg (fun r => Answer.outcome (Except.map (fun _ => ()) r)) hfault
          rw [hok] at hanswer
          cases hanswer
        · exact congrArg Answer.payload hnone
    · refine ⟨log, ?_, .silent hlogout (fun he => absurd he hlogin) h⟩
      rw [hrest, events_perform hlogin hlogout]

/-- **The log is faithful.** Let a session start without events, and let session events be recorded
and all else be with any collaborators. After operations in any order the events are one logout for
each logout and one login for each login that succeeded with a credential, in order and with the
principal that the session answers right after it. All logins between two logouts are of one
principal. -/
theorem events_faithful (others : Collaborators W) (config : AuthConfig) (world : W)
    (ops : List Operation) :
    let start : Session (List Event × W) := .ofConfig config ([], world)
    let events := (start.after (Event.peers others) config ops).world.1
    Logged (Event.peers others) config start ops events ∧
      ∀ earlier between later, events = earlier ++ between ++ later → .logout ∉ between →
        ∀ u v, .login u ∈ between → .login v ∈ between → u = v := by
  intro start events
  obtain ⟨log, hlog, h⟩ : ∃ log, events = [] ++ log ∧
      Logged (Event.peers others) config start ops log := exists_logged (fun _ => rfl) ops
  obtain rfl : events = log := hlog
  exact ⟨h, fun earlier between later hcut hbetween u v hu hv =>
    h.same_principal hcut hbetween hu hv⟩

/-- Two sessions one after the other, in which a login that has no credential and one that finds no
record leave no event. -/
theorem two_sessions_logged :
    let u : Principal := ⟨"User", [("auth_id", .text "u-1")], .empty⟩
    let v : Principal := ⟨"User", [("auth_id", .text "u-2")], .empty⟩
    let memory := ((Memory.ofRequest default true).insert u).insert v
    let ops : List Operation :=
      [ .login, .setAuth ⟨[("authId", .text "u-1")]⟩, .login, .userHas "*" none, .login, .logout,
        .setAuth ⟨[("authId", .text "u-3")]⟩, .login, .setAuth ⟨[("authId", .text "u-2")]⟩, .login ]
    let events : List Event := [.login u, .login u, .logout, .login v]
    ((ofConfig .standard ([], memory)).after (Event.peers Memory.peers) .standard ops).world.1 =
        events ∧
      Logged (Event.peers Memory.peers) .standard (ofConfig .standard ([], memory)) ops events := by
  intro u v memory ops events
  have hevents : ((ofConfig .standard ([], memory)).after (Event.peers Memory.peers) .standard
      ops).world.1 = events := by
    decide +kernel
  have hlogged := (events_faithful Memory.peers .standard memory ops).1
  rw [hevents] at hlogged
  exact ⟨hevents, hlogged⟩

end

end Session

end Clearance
