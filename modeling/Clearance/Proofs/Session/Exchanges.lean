import Clearance.Session.Basic
import Mathlib.Control.Monad.Basic

/-!
# Exchanges with collaborators

The world of a session changes by calls alone, and every call is put on the journal. `Talks` relates
a session to one that it becomes by calls of some kind. What such calls preserve in the world then
holds at every exchange that the journal gained (`Talks.exchanges`).
-/

namespace Clearance

instance : (call : Call) → DecidableEq call.Reply
  | .find _ => inferInstanceAs (DecidableEq (Option String))
  | .decode _ => inferInstanceAs (DecidableEq (Except DecodeFault Payload))
  | .lookup _ => inferInstanceAs (DecidableEq (Except Fault (Option Principal)))
  | .invalidate _ => inferInstanceAs (DecidableEq (Except Fault Unit))
  | .login _ => inferInstanceAs (DecidableEq (Except Fault Unit))
  | .logout => inferInstanceAs (DecidableEq (Except Fault Unit))

deriving instance DecidableEq for Exchange

/-- The collaborators in a world that has another part beside theirs. -/
def Collaborators.beside {W : Type} (V : Type) (peers : Collaborators W) : Collaborators (V × W) :=
  fun call w => ((peers call w.2).1, (w.1, (peers call w.2).2))

namespace Session

variable {W : Type} {peers : Collaborators W} {may : Call → Prop} {base s t u : Session W}

/-- The exchanges that the journal has gained since an earlier state of the session. -/
def exchangesSince (s base : Session W) : List Exchange := s.journal.drop base.journal.length

/-- A session becomes another by calls that may be made. Its memory and guard may change in
between. -/
inductive Talks (peers : Collaborators W) (may : Call → Prop) (s : Session W) :
    Session W → Prop where
  | refl : Talks peers may s s
  | ask {t : Session W} {call : Call} (h : Talks peers may s t) (hcall : may call) :
      Talks peers may s (t.ask peers call).2
  | memory {t u : Session W} (h : Talks peers may s t) (hworld : u.world = t.world)
      (hjournal : u.journal = t.journal) : Talks peers may s u

theorem Talks.trans (h : Talks peers may s t) (h' : Talks peers may t u) :
    Talks peers may s u := by
  induction h' with
  | refl => exact h
  | ask _ hcall ih => exact .ask ih hcall
  | memory _ hworld hjournal ih => exact .memory ih hworld hjournal

theorem Talks.mono {may' : Call → Prop} (h : Talks peers may s t)
    (hmay : ∀ call, may call → may' call) : Talks peers may' s t := by
  induction h with
  | refl => exact .refl
  | ask _ hcall ih => exact .ask ih (hmay _ hcall)
  | memory _ hworld hjournal ih => exact .memory ih hworld hjournal

theorem Talks.journal_extends (h : Talks peers may s t) : s.journal <+: t.journal := by
  induction h with
  | refl => exact List.prefix_rfl
  | ask _ _ ih => exact ih.trans (List.prefix_append _ _)
  | memory _ _ hjournal ih =>
    rw [hjournal]
    exact ih

/-- A call adds its exchange. -/
theorem mem_exchangesSince_ask {call : Call} {e : Exchange} (h : base.journal <+: s.journal) :
    e ∈ (s.ask peers call).2.exchangesSince base ↔
      e ∈ s.exchangesSince base ∨ e = ⟨call, (s.ask peers call).1⟩ := by
  rw [exchangesSince, exchangesSince, journal_ask, List.drop_append_of_le_length h.length_le,
    List.mem_append, List.mem_singleton, fst_ask]

theorem exchangesSince_self : s.exchangesSince s = [] := List.drop_length

/-- A single call is the only exchange since it was made. -/
theorem exchangesSince_ask (call : Call) :
    (s.ask peers call).2.exchangesSince s = [⟨call, (s.ask peers call).1⟩] :=
  List.drop_left

/-- The exchanges up to a state in between come first, and then those since then. -/
theorem exchangesSince_trans (hst : s.journal <+: t.journal) (htu : t.journal <+: u.journal) :
    u.exchangesSince s = t.exchangesSince s ++ u.exchangesSince t := by
  obtain ⟨first, hfirst⟩ := hst
  obtain ⟨second, hsecond⟩ := htu
  rw [exchangesSince, exchangesSince, exchangesSince, ← hsecond, List.drop_left, ← hfirst,
    List.append_assoc, List.drop_left, List.drop_left]

/-- What was exchanged stays on the journal. -/
theorem mem_exchangesSince_of_extends {e : Exchange} (hst : s.journal <+: t.journal)
    (htu : t.journal <+: u.journal) (he : e ∈ t.exchangesSince s) : e ∈ u.exchangesSince s := by
  rw [exchangesSince_trans hst htu]
  exact List.mem_append_left _ he

/-- **Calls that preserve a property of the world.** If the calls that may be made preserve it, it
holds at the end and was the case at every exchange. -/
theorem Talks.exchanges {P : W → Prop} (h : Talks peers may s t)
    (hcall : ∀ call w, may call → P w → P (peers call w).2) (hs : P s.world) :
    P t.world ∧ ∀ e ∈ t.exchangesSince s,
      may e.call ∧ ∃ w, P w ∧ e.reply = (peers e.call w).1 := by
  induction h with
  | refl =>
    refine ⟨hs, fun e he => ?_⟩
    rw [exchangesSince_self] at he
    exact absurd he List.not_mem_nil
  | @ask t call h hmay ih =>
    refine ⟨hcall _ _ hmay ih.1, fun e he => ?_⟩
    rcases (mem_exchangesSince_ask h.journal_extends).1 he with he | rfl
    · exact ih.2 e he
    · exact ⟨hmay, t.world, ih.1, rfl⟩
  | memory _ hworld hjournal ih =>
    rw [hworld, exchangesSince, hjournal]
    exact ih

/-- Only calls that may be made are. -/
theorem Talks.may_of_mem {e : Exchange} (h : Talks peers may s t) (he : e ∈ t.exchangesSince s) :
    may e.call :=
  ((h.exchanges (P := fun _ => True) (fun _ _ _ _ => trivial) trivial).2 e he).1

end Session

end Clearance
