import Clearance.Proofs.Session.Step

/-!
# Where memories come from

A payload that an operation decodes is the one that the session remembers afterwards
(`perform_decoded`), and while one is remembered none is decoded (`perform_undecoded`). A payload
that it comes to remember was handed over or decoded (`perform_obtained`), a principal that it comes
to remember is the record under the key of the remembered payload (`perform_recorded`), and a
principal that it binds is the remembered one (`perform_bound`). Each of these holds since a state
before the operation and is preserved by every step.
-/

namespace Clearance.Session

variable {W : Type} {peers : Collaborators W} {config : AuthConfig} {op : Operation}
variable {base s t : Session W}

/-! ## Decoded payloads -/

/-- A payload that was decoded since an earlier state is the one remembered, and its token was
found under the guard. -/
def Decoded (base s : Session W) : Prop :=
  base.journal <+: s.journal ∧ ∀ token p, ⟨.decode token, .ok p⟩ ∈ s.exchangesSince base →
    s.payload = some p ∧ ⟨.find (candidates s.guardPrefix), some token⟩ ∈ s.exchangesSince base

theorem Decoded.ask {call : Call} (h : Decoded base s)
    (hne : ∀ token p, (⟨.decode token, .ok p⟩ : Exchange) ≠ ⟨call, (s.ask peers call).1⟩) :
    Decoded base (s.ask peers call).2 := by
  refine ⟨h.1.trans (List.prefix_append _ _), fun token p he => ?_⟩
  rcases (mem_exchangesSince_ask h.1).1 he with he | he
  · obtain ⟨hp, hfind⟩ := h.2 token p he
    exact ⟨hp, (mem_exchangesSince_ask h.1).2 (.inl hfind)⟩
  · exact absurd he (hne token p)

theorem Step.decoded_since (h : Step peers config op s t)
    (hop : op.NeedsPayload) (hs : Decoded base s) : Decoded base t := by
  have hfound : Decoded base (s.findToken peers).2 := hs.ask fun _ _ he => by cases he
  cases h with
  | injected => exact absurd hop id
  | searched => exact hfound
  | refused _ _ _ hdecode =>
    refine hfound.ask fun token p he => ?_
    rw [hdecode] at he
    cases he
  | @decoded _ _ token p _ hnone hfind hdecode =>
    refine ⟨hfound.1.trans (List.prefix_append _ _), fun token' p' he => ?_⟩
    rcases (mem_exchangesSince_ask hfound.1).1 he with he | he
    · -- Nothing can have been decoded before, for nothing is remembered yet.
      have hsome : s.payload = some p' := (hfound.2 token' p' he).1
      rw [hnone] at hsome
      exact absurd hsome.symm (Option.some_ne_none p')
    · rw [hdecode] at he
      cases he
      refine ⟨rfl, (mem_exchangesSince_ask hfound.1).2 (.inl ?_)⟩
      refine (mem_exchangesSince_ask hs.1).2 (.inr ?_)
      rw [← hfind]
      rfl
  | missed => exact hs.ask fun _ _ he => by cases he
  | recorded => exact hs.ask fun _ _ he => by cases he
  | bound => exact hs.ask fun _ _ he => by cases he
  | ended => exact absurd hop id

/-- A payload that an operation decodes is remembered, and its token was found under the guard. -/
theorem perform_decoded {token : String} {p : Payload}
    (he : ⟨.decode token, .ok p⟩ ∈ (s.perform peers config op).2.exchangesSince s) :
    (s.perform peers config op).2.payload = some p ∧
      ⟨.find (candidates (s.perform peers config op).2.guardPrefix), some token⟩ ∈
        (s.perform peers config op).2.exchangesSince s := by
  have hop : op.NeedsPayload := (exchange_of_mem he).1
  refine perform_since (fun _ _ hstep => hstep.decoded_since hop) (fun hnil token p he => ?_)
    token p he
  rw [hnil] at he
  exact absurd he List.not_mem_nil

/-- A payload is remembered, and nothing has been decoded since an earlier state. -/
def Undecoded (base s : Session W) : Prop :=
  base.journal <+: s.journal ∧ s.payload ≠ none ∧
    ∀ token r, ⟨.decode token, r⟩ ∉ s.exchangesSince base

theorem Undecoded.ask {call : Call} (h : Undecoded base s)
    (hne : ∀ token r, (⟨.decode token, r⟩ : Exchange) ≠ ⟨call, (s.ask peers call).1⟩) :
    Undecoded base (s.ask peers call).2 := by
  refine ⟨h.1.trans (List.prefix_append _ _), h.2.1, fun token r he => ?_⟩
  rcases (mem_exchangesSince_ask h.1).1 he with he | he
  · exact h.2.2 token r he
  · exact absurd he (hne token r)

theorem Step.undecoded_since (h : Step peers config op s t) (hlogout : op ≠ .logout)
    (hs : Undecoded base s) : Undecoded base t := by
  cases h with
  | injected => exact ⟨hs.1, Option.some_ne_none _, hs.2.2⟩
  | searched => exact hs.ask fun _ _ he => by cases he
  | refused _ hnone => exact absurd hnone hs.2.1
  | decoded _ hnone => exact absurd hnone hs.2.1
  | missed => exact hs.ask fun _ _ he => by cases he
  | recorded => exact hs.ask fun _ _ he => by cases he
  | bound => exact hs.ask fun _ _ he => by cases he
  | ended => exact absurd rfl hlogout

/-- An operation decodes nothing while a payload is remembered. -/
theorem perform_undecoded {token : String} {r : Except DecodeFault Payload}
    (hs : s.payload ≠ none) :
    ⟨.decode token, r⟩ ∉ (s.perform peers config op).2.exchangesSince s := by
  intro he
  have hop : op.NeedsPayload := (exchange_of_mem he).1
  have hlogout : op ≠ .logout := by
    rintro rfl
    exact hop
  have hnever : (s.perform peers config op).2.payload ≠ none ∧
      ∀ token r, ⟨.decode token, r⟩ ∉ (s.perform peers config op).2.exchangesSince s := by
    refine perform_since (fun _ _ hstep => hstep.undecoded_since hlogout) fun hnil => ?_
    rw [hnil, payload_enter]
    exact ⟨hs, fun _ _ => List.not_mem_nil⟩
  exact hnever.2 token r he

/-! ## Obtained payloads -/

/-- A remembered payload was remembered in an earlier state, or it has been handed over or decoded
since. -/
def Obtained (op : Operation) (base s : Session W) : Prop :=
  base.journal <+: s.journal ∧ ∀ p, s.payload = some p →
    base.payload = some p ∨ op = .setAuth p ∨
      ∃ token, ⟨.decode token, .ok p⟩ ∈ s.exchangesSince base

theorem Obtained.ask {call : Call} (h : Obtained op base s) :
    Obtained op base (s.ask peers call).2 := by
  refine ⟨h.1.trans (List.prefix_append _ _), fun p hp => ?_⟩
  rcases h.2 p hp with hbase | hop | ⟨token, he⟩
  · exact .inl hbase
  · exact .inr (.inl hop)
  · exact .inr (.inr ⟨token, (mem_exchangesSince_ask h.1).2 (.inl he)⟩)

theorem Step.obtained_since (h : Step peers config op s t) (hs : Obtained op base s) :
    Obtained op base t := by
  have hfound : Obtained op base (s.findToken peers).2 := hs.ask
  cases h with
  | injected p =>
    refine ⟨hs.1, fun p' hp => ?_⟩
    cases hp
    exact .inr (.inl rfl)
  | searched => exact hfound
  | refused => exact hfound.ask
  | @decoded _ _ token p _ _ _ hdecode =>
    refine ⟨hfound.1.trans (List.prefix_append _ _), fun p' hp => ?_⟩
    cases hp
    refine .inr (.inr ⟨token, (mem_exchangesSince_ask hfound.1).2 (.inr ?_)⟩)
    rw [hdecode]
  | missed => exact hs.ask
  | recorded => exact hs.ask
  | bound => exact hs.ask
  | ended =>
    refine ⟨hs.1.trans (logout_talks s).journal_extends, fun p hp => ?_⟩
    rw [payload_logout] at hp
    cases hp

/-- A payload that is remembered after an operation was remembered before it, or the operation
handed it over or decoded it. -/
theorem perform_obtained {p : Payload} (hp : (s.perform peers config op).2.payload = some p) :
    s.payload = some p ∨ op = .setAuth p ∨
      ∃ token, ⟨.decode token, .ok p⟩ ∈ (s.perform peers config op).2.exchangesSince s := by
  refine perform_since (fun _ _ hstep => hstep.obtained_since) (fun _ p hp => ?_) p hp
  rw [payload_enter] at hp
  exact .inl hp

/-! ## Recorded principals -/

/-- A remembered principal was looked up since an earlier state under the key of the remembered
payload. -/
def Recorded (config : AuthConfig) (base s : Session W) : Prop :=
  base.journal <+: s.journal ∧ ∀ u, s.principal = some u →
    ∃ q key relations, s.payload = some q ∧ q.key? config.identityClaim = some key ∧
      ⟨.lookup (wanted config key relations), .ok (some u)⟩ ∈ s.exchangesSince base

theorem Recorded.ask {call : Call} (h : Recorded config base s) :
    Recorded config base (s.ask peers call).2 := by
  refine ⟨h.1.trans (List.prefix_append _ _), fun u hu => ?_⟩
  obtain ⟨q, key, relations, hq, hkey, he⟩ := h.2 u hu
  exact ⟨q, key, relations, hq, hkey, (mem_exchangesSince_ask h.1).2 (.inl he)⟩

theorem Step.recorded_since (h : Step peers config op s t)
    (hop : ¬ op.Injects) (hs : Recorded config base s) : Recorded config base t := by
  have hfound : Recorded config base (s.findToken peers).2 := hs.ask
  cases h with
  | injected => exact absurd trivial hop
  | searched => exact hfound
  | refused => exact hfound.ask
  | decoded _ hnone =>
    refine ⟨hfound.1.trans (List.prefix_append _ _), fun u hu => ?_⟩
    obtain ⟨q, -, -, hq, -⟩ := hs.2 u hu
    rw [hnone] at hq
    cases hq
  | missed => exact hs.ask
  | @recorded _ _ q key relations u _ _ hq hkey hreply =>
    refine ⟨hs.1.trans (List.prefix_append _ _), fun u' hu => ?_⟩
    cases hu
    refine ⟨q, key, relations, hq, hkey, (mem_exchangesSince_ask hs.1).2 (.inr ?_)⟩
    rw [hreply]
  | bound => exact hs.ask
  | ended =>
    refine ⟨hs.1.trans (logout_talks s).journal_extends, fun u hu => ?_⟩
    rw [principal_logout] at hu
    cases hu

/-- A principal that an operation comes to remember is the record for the payload it remembers. -/
theorem perform_recorded {u : Principal} (hnone : s.principal = none)
    (hu : (s.perform peers config op).2.principal = some u) :
    ∃ q key relations, (s.perform peers config op).2.payload = some q ∧
      q.key? config.identityClaim = some key ∧
      ⟨.lookup (wanted config key relations), .ok (some u)⟩ ∈
        (s.perform peers config op).2.exchangesSince s := by
  by_cases hop : op.Injects
  · cases op with
    | setAuth p =>
      have hsame : s.principal = some u := hu
      rw [hnone] at hsame
      cases hsame
    | _ => exact absurd hop id
  · refine perform_since (fun _ _ hstep => hstep.recorded_since hop) (fun _ u hu => ?_) u hu
    rw [principal_enter, hnone] at hu
    cases hu

/-- A principal that is remembered after an operation was remembered before it, or it is the record
for the payload that is remembered. -/
theorem kept_or_recorded {u : Principal} (hu : (s.perform peers config op).2.principal = some u) :
    s.principal = some u ∧ op ≠ .logout ∨
      s.principal = none ∧ ∃ q key relations, (s.perform peers config op).2.payload = some q ∧
        q.key? config.identityClaim = some key ∧
        ⟨.lookup (wanted config key relations), .ok (some u)⟩ ∈
          (s.perform peers config op).2.exchangesSince s := by
  cases hbefore : s.principal with
  | none => exact .inr ⟨rfl, perform_recorded hbefore hu⟩
  | some v =>
    have hlogout : op ≠ .logout := by
      rintro rfl
      have hnone : (s.perform peers config .logout).2.principal = none := principal_logout
      rw [hnone] at hu
      cases hu
    rw [principal_perform hlogout hbefore] at hu
    exact .inl ⟨hu, hlogout⟩

/-! ## Bound principals -/

/-- A principal that was bound since an earlier state is the one remembered. -/
def Bound (base s : Session W) : Prop :=
  base.journal <+: s.journal ∧
    ∀ u r, ⟨.login u, r⟩ ∈ s.exchangesSince base → s.principal = some u

theorem Bound.ask {call : Call} (h : Bound base s)
    (hne : ∀ u r, (⟨.login u, r⟩ : Exchange) = ⟨call, (s.ask peers call).1⟩ →
      s.principal = some u) :
    Bound base (s.ask peers call).2 := by
  refine ⟨h.1.trans (List.prefix_append _ _), fun u r he => ?_⟩
  rcases (mem_exchangesSince_ask h.1).1 he with he | he
  · exact h.2 u r he
  · exact hne u r he

theorem Step.bound_since (h : Step peers config op s t)
    (hlogout : op ≠ .logout) (hs : Bound base s) : Bound base t := by
  have hfound : Bound base (s.findToken peers).2 := hs.ask fun _ _ he => by cases he
  cases h with
  | injected => exact hs
  | searched => exact hfound
  | refused => exact hfound.ask fun _ _ he => by cases he
  | decoded => exact hfound.ask fun _ _ he => by cases he
  | missed => exact hs.ask fun _ _ he => by cases he
  | recorded _ hnone =>
    refine ⟨hs.1.trans (List.prefix_append _ _), fun u r he => ?_⟩
    rcases (mem_exchangesSince_ask hs.1).1 he with he | he
    · have hsome := hs.2 u r he
      rw [hnone] at hsome
      cases hsome
    · cases he
  | @bound _ u hsome =>
    refine hs.ask fun u' r he => ?_
    cases he
    exact hsome
  | ended => exact absurd rfl hlogout

/-- A principal that an operation binds is remembered. -/
theorem perform_bound {u : Principal} {r : Except Fault Unit}
    (he : ⟨.login u, r⟩ ∈ (s.perform peers config op).2.exchangesSince s) :
    (s.perform peers config op).2.principal = some u := by
  have hop : op = .login := (exchange_of_mem he).1
  have hlogout : op ≠ .logout := by
    rw [hop]
    exact nofun
  refine perform_since (fun _ _ hstep => hstep.bound_since hlogout) (fun hnil u r he => ?_) u r he
  rw [hnil] at he
  exact absurd he List.not_mem_nil

end Clearance.Session
