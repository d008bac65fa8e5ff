import Clearance.Proofs.Session.Provenance

/-!
# Histories of a session

A history is a list of operations, the earliest first, and `Session.after` is the session that it
leads to. `Since` says of a history that something happened in one of its operations and that only
operations of a given kind came later. So one can speak of the payload that was decoded since the
last logout, or of a principal that was looked up since then.
-/

namespace Clearance

deriving instance DecidableEq for Answer

/-- The operation leaves a remembered payload as it is. -/
def Operation.KeepsPayload (op : Operation) : Prop := ¬ op.Injects ∧ op ≠ .logout

theorem Operation.keepsPayload_of_answerTo? {config : AuthConfig} {op : Operation}
    {answer : Option Payload → Answer} (hop : op.answerTo? config = some answer) :
    op.KeepsPayload := by
  cases op with
  | setAuth p => cases hop
  | logout => cases hop
  | _ => exact ⟨id, nofun⟩

namespace Session

variable {W : Type} {peers : Collaborators W} {config : AuthConfig} {start : Session W}

/-- The session after operations. -/
def after (peers : Collaborators W) (config : AuthConfig) (start : Session W)
    (ops : List Operation) : Session W :=
  (start.run peers config ops).2

theorem after_nil : start.after peers config [] = start := rfl

theorem after_append (ops more : List Operation) :
    start.after peers config (ops ++ more) =
      (start.after peers config ops).after peers config more := by
  induction ops generalizing start with
  | nil => rfl
  | cons op ops ih => exact ih

theorem after_concat (ops : List Operation) (op : Operation) :
    start.after peers config (ops ++ [op]) =
      ((start.after peers config ops).perform peers config op).2 := by
  rw [after_append]
  rfl

/-- Operations make only calls that one of them may make. -/
theorem after_talks (ops : List Operation) :
    Talks peers (fun call => ∃ op ∈ ops, op.MayCall call) start (start.after peers config ops) := by
  induction ops generalizing start with
  | nil => exact .refl
  | cons op ops ih =>
    have hfirst : Talks peers (fun call => ∃ op' ∈ op :: ops, op'.MayCall call) start
        (start.perform peers config op).2 :=
      (perform_talks op start).mono fun call hcall => ⟨op, List.mem_cons_self, hcall⟩
    refine hfirst.trans (ih.mono ?_)
    rintro call ⟨op', hmem, hcall⟩
    exact ⟨op', List.mem_cons_of_mem op hmem, hcall⟩

/-- In one of the operations something happened to the session, and only operations that keep it so
came later. -/
inductive Since (peers : Collaborators W) (config : AuthConfig) (start : Session W)
    (Happens : Session W → Session W → Prop) (Keeps : Operation → Prop) :
    List Operation → Prop where
  /-- It happened in the last operation. -/
  | now {ops : List Operation} {op : Operation}
      (h : Happens (start.after peers config ops) (start.after peers config (ops ++ [op]))) :
      Since peers config start Happens Keeps (ops ++ [op])
  /-- It happened before, and the last operation keeps it so. -/
  | later {ops : List Operation} {op : Operation}
      (h : Since peers config start Happens Keeps ops) (hkeeps : Keeps op) :
      Since peers config start Happens Keeps (ops ++ [op])

variable {Happens : Session W → Session W → Prop} {Keeps : Operation → Prop}

/-- What what happened brings about, and what the later operations preserve, holds now. -/
theorem Since.holds {P : Session W → Prop} {ops : List Operation}
    (h : Since peers config start Happens Keeps ops)
    (hnow : ∀ ops op, Happens (start.after peers config ops)
      ((start.after peers config ops).perform peers config op).2 →
      P ((start.after peers config ops).perform peers config op).2)
    (hlater : ∀ s op, Keeps op → P s → P (s.perform peers config op).2) :
    P (start.after peers config ops) := by
  induction h with
  | now h =>
    rw [after_concat] at h ⊢
    exact hnow _ _ h
  | later _ hkeeps ih =>
    rw [after_concat]
    exact hlater _ _ hkeeps ih

/-! ## Payloads and principals in a history -/

/-- The token was decoded, having been found under the guard. -/
def Decodes (token guardPrefix : String) (s t : Session W) : Prop :=
  (∃ p, ⟨.decode token, .ok p⟩ ∈ t.exchangesSince s) ∧ t.guardPrefix = guardPrefix

/-- The principal came to be remembered together with the payload. -/
def Finds (q : Payload) (u : Principal) (s t : Session W) : Prop :=
  s.principal = none ∧ t.principal = some u ∧ t.payload = some q

end Session

end Clearance
