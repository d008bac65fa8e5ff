import Clearance.Proofs.Session.History
import Mathlib.Data.List.Induction

/-!
# Courses of a session

A course is what happens to a session, the earliest first: operations, and between them changes of
the world from outside. `Session.follow` is the session that it leads to. A payload is obtained in a
turn of the course when it is handed over or decoded there, and `HoldsFrom` says that a session
remembers a payload and where it obtained one last. Every remembered payload has such a source
(`exists_holdsFrom`), and it is held as long as the session does not end and no other is handed
over (`holdsFrom_iff`). An operation that asks for nothing but the payload is answered from a source
or from none (`answeredFrom_or_none`).
-/

namespace Clearance

/-- What can happen to a session. -/
inductive Turn (W : Type) where
  /-- An operation is performed. -/
  | operation (op : Operation)
  /-- The world changes from outside. -/
  | change (f : W → W)

/-- The turn leaves a remembered payload as it is. -/
def Turn.KeepsPayload {W : Type} : Turn W → Prop
  | operation op => op.KeepsPayload
  | change _ => True

namespace Session

variable {W : Type} {peers : Collaborators W} {config : AuthConfig} {start s : Session W}
variable {course more : List (Turn W)} {turn : Turn W}

/-- The session after a turn. -/
def take (peers : Collaborators W) (config : AuthConfig) (turn : Turn W) (s : Session W) :
    Session W :=
  match turn with
  | .operation op => (s.perform peers config op).2
  | .change f => s.change f

/-- The session after a course. -/
def follow (peers : Collaborators W) (config : AuthConfig) (start : Session W)
    (course : List (Turn W)) : Session W :=
  course.foldl (fun s turn => s.take peers config turn) start

theorem follow_append (course more : List (Turn W)) :
    start.follow peers config (course ++ more) =
      (start.follow peers config course).follow peers config more :=
  List.foldl_append

theorem follow_concat (course : List (Turn W)) (turn : Turn W) :
    start.follow peers config (course ++ [turn]) =
      (start.follow peers config course).take peers config turn :=
  follow_append course [turn]

/-- What holds at the start and is preserved by every turn of the course holds at its end. -/
theorem follow_preserves {P : Session W → Prop}
    (hturn : ∀ turn ∈ course, ∀ s, P s → P (s.take peers config turn)) (h : P start) :
    P (start.follow peers config course) := by
  induction course using List.reverseRecOn with
  | nil => exact h
  | append_singleton course turn ih =>
    obtain ⟨hcourse, hlast⟩ := List.forall_mem_append.1 hturn
    rw [follow_concat]
    exact hlast turn (List.mem_singleton_self turn) _ (ih hcourse)

/-! ## Exchanges in a course -/

theorem take_extends (turn : Turn W) (s : Session W) :
    s.journal <+: (s.take peers config turn).journal := by
  cases turn with
  | operation op => exact (perform_talks op s).journal_extends
  | change f => exact List.prefix_rfl

theorem follow_extends (course : List (Turn W)) (start : Session W) :
    start.journal <+: (start.follow peers config course).journal :=
  follow_preserves (P := fun s => start.journal <+: s.journal)
    (fun turn _ s hs => hs.trans (take_extends turn s)) List.prefix_rfl

/-- There are exchanges only in operations. -/
theorem exists_operation_of_mem {e : Exchange}
    (he : e ∈ (s.take peers config turn).exchangesSince s) : ∃ op, turn = .operation op := by
  cases turn with
  | operation op => exact ⟨op, rfl⟩
  | change f =>
    have hnone : (s.change f).exchangesSince s = [] := exchangesSince_self
    rw [take, hnone] at he
    exact absurd he List.not_mem_nil

/-- The exchanges of a course that goes on are those so far and those of the rest. -/
theorem exchangesSince_follow_append (course more : List (Turn W)) :
    (start.follow peers config (course ++ more)).exchangesSince start =
      (start.follow peers config course).exchangesSince start ++
        (start.follow peers config (course ++ more)).exchangesSince
          (start.follow peers config course) := by
  rw [follow_append]
  exact exchangesSince_trans (follow_extends course start) (follow_extends more _)

/-- What every turn preserves and what holds of its exchanges then holds along the course. -/
theorem exchanges_follow {P : Session W → Prop} {Q : Exchange → Prop}
    (hturn : ∀ turn ∈ course, ∀ s, P s → P (s.take peers config turn) ∧
      ∀ e ∈ (s.take peers config turn).exchangesSince s, Q e) (h : P start) :
    P (start.follow peers config course) ∧
      ∀ e ∈ (start.follow peers config course).exchangesSince start, Q e := by
  induction course using List.reverseRecOn with
  | nil =>
    refine ⟨h, fun e he => ?_⟩
    rw [show start.follow peers config [] = start from rfl, exchangesSince_self] at he
    exact absurd he List.not_mem_nil
  | append_singleton course turn ih =>
    obtain ⟨hcourse, hlast⟩ := List.forall_mem_append.1 hturn
    obtain ⟨hP, hQ⟩ := ih hcourse
    have hnow := hlast turn (List.mem_singleton_self turn) _ hP
    rw [exchangesSince_follow_append, follow_concat]
    exact ⟨hnow.1, List.forall_mem_append.2 ⟨hQ, hnow.2⟩⟩

/-! ## Where payloads come from -/

/-- Where a payload comes from. -/
inductive Source where
  /-- It was handed over. -/
  | injected
  /-- It was decoded from the token. -/
  | decoded (token : String)
  deriving DecidableEq

/-- In a turn from one state to another the payload is obtained from the source. -/
def Obtains (source : Source) (p : Payload) (turn : Turn W) (s t : Session W) : Prop :=
  match source with
  | .injected => turn = .operation (.setAuth p)
  | .decoded token => ⟨.decode token, .ok p⟩ ∈ t.exchangesSince s

/-- A payload that is obtained is remembered. -/
theorem Obtains.payload_eq {source : Source} {p : Payload}
    (h : Obtains source p turn s (s.take peers config turn)) :
    (s.take peers config turn).payload = some p := by
  cases source with
  | injected =>
    obtain rfl : turn = .operation (.setAuth p) := h
    rfl
  | decoded token =>
    obtain ⟨op, rfl⟩ := exists_operation_of_mem h
    exact (perform_decoded h).1

/-- A payload that is remembered after a turn was remembered before it or is obtained in it. -/
theorem payload_or_obtains {p : Payload} (hp : (s.take peers config turn).payload = some p) :
    s.payload = some p ∨ ∃ source, Obtains source p turn s (s.take peers config turn) := by
  cases turn with
  | operation op =>
    rcases perform_obtained hp with hbefore | rfl | ⟨token, he⟩
    · exact .inl hbefore
    · exact .inr ⟨.injected, rfl⟩
    · exact .inr ⟨.decoded token, he⟩
  | change f => exact .inl hp

/-- A turn in which nothing is obtained and after which a payload is remembered has kept it. -/
theorem keepsPayload_of_not_obtains {p : Payload}
    (hnone : ∀ source q, ¬ Obtains source q turn s (s.take peers config turn))
    (hp : (s.take peers config turn).payload = some p) : turn.KeepsPayload := by
  cases turn with
  | operation op =>
    refine ⟨fun hop => ?_, ?_⟩
    · cases op with
      | setAuth q => exact hnone .injected q rfl
      | _ => exact hop
    · rintro rfl
      have hforgotten : (s.logout peers).2.payload = none := payload_logout
      have hsome : (s.logout peers).2.payload = some p := hp
      rw [hforgotten] at hsome
      cases hsome
  | change f => trivial

/-- The payload was obtained from the source in a turn of the course, and none was obtained in a
later turn. -/
inductive ObtainedLast (peers : Collaborators W) (config : AuthConfig) (start : Session W)
    (source : Source) (p : Payload) : List (Turn W) → Prop where
  /-- It was obtained in the last turn. -/
  | now {course : List (Turn W)} {turn : Turn W}
      (h : Obtains source p turn (start.follow peers config course)
        ((start.follow peers config course).take peers config turn)) :
      ObtainedLast peers config start source p (course ++ [turn])
  /-- It was obtained before, and none is obtained in the last turn. -/
  | later {course : List (Turn W)} {turn : Turn W}
      (h : ObtainedLast peers config start source p course)
      (hnone : ∀ source' q, ¬ Obtains source' q turn (start.follow peers config course)
        ((start.follow peers config course).take peers config turn)) :
      ObtainedLast peers config start source p (course ++ [turn])

theorem ObtainedLast.ne_nil {source : Source} {p : Payload}
    (h : ObtainedLast peers config start source p course) : course ≠ [] := by
  cases h <;> simp

/-- After the course the session remembers the payload, and this is the one it obtained last. -/
structure HoldsFrom (peers : Collaborators W) (config : AuthConfig) (start : Session W)
    (source : Source) (p : Payload) (course : List (Turn W)) : Prop where
  remembered : (start.follow peers config course).payload = some p
  obtained : ObtainedLast peers config start source p course

section
variable {source : Source} {p : Payload}

/-- What is held after a turn was obtained in it, or held before and kept. -/
theorem HoldsFrom.cases_concat (h : HoldsFrom peers config start source p (course ++ [turn])) :
    Obtains source p turn (start.follow peers config course)
        ((start.follow peers config course).take peers config turn) ∨
      HoldsFrom peers config start source p course ∧ turn.KeepsPayload := by
  obtain ⟨hp, hlast⟩ := h
  rw [follow_concat] at hp
  generalize hc : course ++ [turn] = whole at hlast
  cases hlast with
  | now hnow =>
    obtain ⟨rfl, hturn⟩ := List.append_inj' hc rfl
    cases hturn
    exact .inl hnow
  | later hbefore hnone =>
    obtain ⟨rfl, hturn⟩ := List.append_inj' hc rfl
    cases hturn
    refine .inr ⟨⟨?_, hbefore⟩, keepsPayload_of_not_obtains hnone hp⟩
    rcases payload_or_obtains hp with hsame | ⟨source', h⟩
    · exact hsame
    · exact absurd h (hnone source' p)

/-- **Every payload has a source.** What a session remembers that remembered nothing at the start
was obtained in the course. -/
theorem exists_holdsFrom (hstart : start.payload = none)
    (hp : (start.follow peers config course).payload = some p) :
    ∃ source, HoldsFrom peers config start source p course := by
  induction course using List.reverseRecOn with
  | nil =>
    rw [show start.follow peers config [] = start from rfl, hstart] at hp
    cases hp
  | append_singleton course turn ih =>
    have hp' := hp
    rw [follow_concat] at hp'
    by_cases hsome : ∃ source q, Obtains source q turn (start.follow peers config course)
        ((start.follow peers config course).take peers config turn)
    · obtain ⟨source, q, hq⟩ := hsome
      have hsame := hq.payload_eq
      rw [hp'] at hsame
      cases hsame
      exact ⟨source, hp, .now hq⟩
    · have hnone : ∀ source q, ¬ Obtains source q turn (start.follow peers config course)
          ((start.follow peers config course).take peers config turn) :=
        fun source q hq => hsome ⟨source, q, hq⟩
      rcases payload_or_obtains hp' with hbefore | ⟨source, h⟩
      · obtain ⟨source, hsource⟩ := ih hbefore
        exact ⟨source, hp, .later hsource.obtained hnone⟩
      · exact absurd h (hnone source p)

/-- A held payload was obtained in a turn of the course, and every later turn kept it. -/
theorem HoldsFrom.exists_turn (h : HoldsFrom peers config start source p course) :
    ∃ early turn late, course = early ++ turn :: late ∧
      Obtains source p turn (start.follow peers config early)
        ((start.follow peers config early).take peers config turn) ∧
      ∀ x ∈ late, x.KeepsPayload := by
  induction course using List.reverseRecOn with
  | nil => exact absurd rfl h.obtained.ne_nil
  | append_singleton course turn ih =>
    rcases h.cases_concat with hnow | ⟨hbefore, hkeeps⟩
    · exact ⟨course, turn, [], rfl, hnow, fun _ hx => absurd hx List.not_mem_nil⟩
    · obtain ⟨early, first, late, rfl, hfirst, hlate⟩ := ih hbefore
      exact ⟨early, first, late ++ [turn], by simp, hfirst,
        List.forall_mem_append.2 ⟨hlate, List.forall_mem_singleton.2 hkeeps⟩⟩

/-- Nothing is obtained in a turn that keeps the payload that is remembered. -/
theorem not_obtains_of_keepsPayload {q : Payload} (hp : s.payload = some p)
    (hkeeps : turn.KeepsPayload) : ¬ Obtains source q turn s (s.take peers config turn) := by
  intro h
  cases source with
  | injected =>
    obtain rfl : turn = .operation (.setAuth q) := h
    exact hkeeps.1 trivial
  | decoded token =>
    obtain ⟨op, rfl⟩ := exists_operation_of_mem h
    refine perform_undecoded ?_ h
    rw [hp]
    exact Option.some_ne_none p

theorem payload_take (hp : s.payload = some p) (hkeeps : turn.KeepsPayload) :
    (s.take peers config turn).payload = some p := by
  cases turn with
  | operation op => exact payload_perform hkeeps.1 hkeeps.2 hp
  | change f => exact hp

theorem HoldsFrom.concat (h : HoldsFrom peers config start source p course)
    (hkeeps : turn.KeepsPayload) : HoldsFrom peers config start source p (course ++ [turn]) := by
  refine ⟨?_, .later h.obtained fun _ _ => not_obtains_of_keepsPayload h.remembered hkeeps⟩
  rw [follow_concat]
  exact payload_take h.remembered hkeeps

/-- **What a session holds.** A session holds a payload from a source exactly if it obtained the
payload from there in some turn and every later turn kept it. -/
theorem holdsFrom_iff :
    HoldsFrom peers config start source p course ↔
      ∃ early turn late, course = early ++ turn :: late ∧
        Obtains source p turn (start.follow peers config early)
          ((start.follow peers config early).take peers config turn) ∧
        ∀ x ∈ late, x.KeepsPayload := by
  refine ⟨fun h => h.exists_turn, ?_⟩
  rintro ⟨early, turn, late, rfl, hturn, hlate⟩
  induction late using List.reverseRecOn with
  | nil =>
    refine ⟨?_, .now hturn⟩
    rw [follow_concat]
    exact hturn.payload_eq
  | append_singleton late last ih =>
    obtain ⟨hlate, hlast⟩ := List.forall_mem_append.1 hlate
    rw [show early ++ turn :: (late ++ [last]) = early ++ turn :: late ++ [last] by simp]
    exact (ih hlate).concat (hlast last (List.mem_singleton_self last))

/-! ## What operations are answered from -/

/-- The operation asks for nothing but the payload, and it is answered from one that the session
holds from the source. -/
def AnsweredFrom (peers : Collaborators W) (config : AuthConfig) (start : Session W)
    (source : Source) (course : List (Turn W)) (op : Operation) : Prop :=
  ∃ answer p, op.answerTo? config = some answer ∧
    ((start.follow peers config course).perform peers config op).1 = answer (some p) ∧
    HoldsFrom peers config start source p (course ++ [.operation op])

/-- A payload that is held after such an operation is what it was answered from. -/
theorem HoldsFrom.answeredFrom {op : Operation} {answer : Option Payload → Answer}
    (h : HoldsFrom peers config start source p (course ++ [.operation op]))
    (hop : op.answerTo? config = some answer) :
    AnsweredFrom peers config start source course op := by
  have hp := h.remembered
  rw [follow_concat] at hp
  refine ⟨answer, p, hop, (answer_of_payload hop _).trans (congrArg answer ?_), h⟩
  exact hp

/-- An operation that asks for nothing but the payload is answered from a source or from none. -/
theorem answeredFrom_or_none {op : Operation} {answer : Option Payload → Answer}
    (hstart : start.payload = none) (hop : op.answerTo? config = some answer) :
    (∃ source, AnsweredFrom peers config start source course op) ∨
      ((start.follow peers config course).perform peers config op).1 = answer none := by
  cases hp : (start.follow peers config (course ++ [.operation op])).payload with
  | some p =>
    obtain ⟨source, hholds⟩ := exists_holdsFrom hstart hp
    exact .inl ⟨source, hholds.answeredFrom hop⟩
  | none =>
    rw [follow_concat] at hp
    exact .inr ((answer_of_payload hop _).trans (congrArg answer hp))

end

end Session

end Clearance
