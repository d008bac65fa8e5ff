import Clearance.Proofs.Session.Course

/-!
# Nothing outlives a logout

A session forgets payload and principal together, and it remembers a principal only with a payload
(`follow_grounded`). So what it uses after a logout it has obtained since: every payload was handed
over or decoded in a turn after the logout, and every principal was looked up in such a turn, under
the key of a payload that was obtained in one (`fresh_after_logout`). This holds whatever the
collaborators answer and whether the logout succeeds or fails.
-/

namespace Clearance.Session

variable {W : Type} {peers : Collaborators W} {config : AuthConfig} {op : Operation}
variable {start s t : Session W} {course : List (Turn W)} {p : Payload} {u : Principal}

/-! ## Principals and payloads -/

/-- A principal is remembered only together with a payload. -/
def Grounded (s : Session W) : Prop := s.payload = none → s.principal = none

theorem Step.grounded (h : Step peers config op s t) (hs : Grounded s) : Grounded t := by
  cases h with
  | injected => exact nofun
  | searched => exact hs
  | refused => exact hs
  | decoded => exact nofun
  | missed => exact hs
  | recorded _ _ hpayload =>
    intro hnone
    have hsame : s.payload = none := hnone
    rw [hpayload] at hsame
    cases hsame
  | bound => exact hs
  | ended => exact fun _ => principal_logout

theorem perform_grounded (op : Operation) (hs : Grounded s) :
    Grounded (s.perform peers config op).2 := by
  refine perform_preserves (fun _ _ hstep => hstep.grounded) ?_
  rw [Grounded, payload_enter, principal_enter]
  exact hs

theorem take_grounded (turn : Turn W) (hs : Grounded s) :
    Grounded (s.take peers config turn) := by
  cases turn with
  | operation op => exact perform_grounded op hs
  | change f => exact hs

theorem follow_grounded (hstart : Grounded start) (course : List (Turn W)) :
    Grounded (start.follow peers config course) :=
  follow_preserves (fun turn _ _ => take_grounded turn) hstart

/-! ## What is obtained in a course -/

/-- The payload was handed over or decoded in a turn of the course. -/
def ObtainedIn (peers : Collaborators W) (config : AuthConfig) (start : Session W)
    (course : List (Turn W)) (p : Payload) : Prop :=
  ∃ source early turn late, course = early ++ turn :: late ∧
    Obtains source p turn (start.follow peers config early)
      (start.follow peers config (early ++ [turn]))

/-- The principal was looked up in a turn of the course, under the key of a payload that had been
obtained in the course by then. -/
def FoundIn (peers : Collaborators W) (config : AuthConfig) (start : Session W)
    (course : List (Turn W)) (u : Principal) : Prop :=
  ∃ early turn late q key relations, course = early ++ turn :: late ∧
    ObtainedIn peers config start (early ++ [turn]) q ∧
    q.key? config.identityClaim = some key ∧
    ⟨.lookup (wanted config key relations), .ok (some u)⟩ ∈
      (start.follow peers config (early ++ [turn])).exchangesSince
        (start.follow peers config early)

theorem FoundIn.append (h : FoundIn peers config start course u) (more : List (Turn W)) :
    FoundIn peers config start (course ++ more) u := by
  obtain ⟨early, turn, late, q, key, relations, rfl, hq, hkey, he⟩ := h
  exact ⟨early, turn, late ++ more, q, key, relations, by simp, hq, hkey, he⟩

/-- A payload is obtained before it is remembered. -/
theorem obtainedIn_of_payload (hstart : start.payload = none)
    (hp : (start.follow peers config course).payload = some p) :
    ObtainedIn peers config start course p := by
  obtain ⟨source, hholds⟩ := exists_holdsFrom hstart hp
  obtain ⟨early, turn, late, hcourse, hobtains, -⟩ := hholds.exists_turn
  rw [← follow_concat] at hobtains
  exact ⟨source, early, turn, late, hcourse, hobtains⟩

/-- A principal is looked up before it is remembered. -/
theorem foundIn_of_principal (hpayload : start.payload = none) (hprincipal : start.principal = none)
    (hu : (start.follow peers config course).principal = some u) :
    FoundIn peers config start course u := by
  induction course using List.reverseRecOn with
  | nil =>
    rw [show start.follow peers config [] = start from rfl, hprincipal] at hu
    cases hu
  | append_singleton course turn ih =>
    rw [follow_concat] at hu
    cases turn with
    | change f => exact (ih hu).append [.change f]
    | operation op =>
      rcases kept_or_recorded hu with ⟨hbefore, -⟩ | ⟨-, q, key, relations, hq, hkey, he⟩
      · exact (ih hbefore).append [.operation op]
      · refine ⟨course, .operation op, [], q, key, relations, rfl, ?_, hkey, ?_⟩
        · refine obtainedIn_of_payload hpayload ?_
          rw [follow_concat]
          exact hq
        · rw [follow_concat]
          exact he

/-! ## After a logout -/

/-- **Nothing resolved before a logout is used after it.** Every state of a session remembers a
principal only with a payload. After a logout, whatever it answered, an operation that only asks for
the payload is answered from one that was handed over or decoded since, or from none, and a
principal that is answered or bound was looked up since, under the key of a payload that was
obtained since. -/
theorem fresh_after_logout (peers : Collaborators W) (config : AuthConfig) (world : W)
    (before later : List (Turn W)) (op : Operation) :
    let reached := (ofConfig config world).follow peers config before
    let ended := (reached.logout peers).2
    let s := ended.follow peers config later
    let answered := s.perform peers config op
    (∀ u, reached.principal = some u → ∃ p, reached.payload = some p) ∧
      (∀ answer, op.answerTo? config = some answer →
        answered.1 = answer answered.2.payload ∧ ∀ p, answered.2.payload = some p →
          ObtainedIn peers config ended (later ++ [.operation op]) p) ∧
      (∀ u, (answered.1 = .principal (.ok (some u)) ∨
          ∃ r, ⟨.login u, r⟩ ∈ answered.2.exchangesSince s) →
        FoundIn peers config ended (later ++ [.operation op]) u) := by
  intro reached ended s answered
  have hlast : ended.follow peers config (later ++ [.operation op]) = answered.2 :=
    follow_concat later (.operation op)
  have hpayload : ended.payload = none := payload_logout
  have hprincipal : ended.principal = none := principal_logout
  refine ⟨fun u hu => ?_, fun answer hop => ⟨answer_of_payload hop s, fun p hp => ?_⟩,
    fun u hu => foundIn_of_principal hpayload hprincipal ?_⟩
  · have hgrounded : Grounded reached := follow_grounded (fun _ => rfl) before
    cases hp : reached.payload with
    | none =>
      rw [hgrounded hp] at hu
      cases hu
    | some p => exact ⟨p, rfl⟩
  · refine obtainedIn_of_payload hpayload ?_
    rw [hlast]
    exact hp
  · rw [hlast]
    rcases hu with hu | ⟨r, he⟩
    · exact principal_of_answer hu
    · exact perform_bound he

end Clearance.Session
