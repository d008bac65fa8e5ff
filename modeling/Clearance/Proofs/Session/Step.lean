import Clearance.Proofs.Session.Exchanges
import Clearance.Proofs.Session.Outcome
import Mathlib.Logic.Relation

/-!
# Steps of a session

An operation that carries a guard sets it first (`Session.enter`). After that a session only takes
the steps of `Session.Step`: it takes a payload that is handed to it, looks for a token, decodes
one, looks up a principal, binds it, or ends. `perform_steps` breaks every operation into such
steps, so that what each step preserves is preserved by operations (`perform_preserves`). What a
session remembers goes away only at logout, and a payload also when another is handed over
(`payload_perform`, `principal_perform`). Answers are given from what is remembered afterwards
(`answer_of_payload`, `principal_of_answer`, `answer_of_principal`).
-/

namespace Clearance

namespace Operation

/-- The guard that comes with the operation. -/
def guardArgument? : Operation → Option (Option String)
  | setGuard guardPrefix => some guardPrefix
  | userHas _ guardPrefix => some guardPrefix
  | userHasCondition _ guardPrefix => some guardPrefix
  | _ => none

/-- The operation asks for the payload of the credential. -/
def NeedsPayload : Operation → Prop
  | auth | claims | user _ | userHas _ _ | userHasCondition _ _ | login => True
  | _ => False

/-- The operation asks for the principal behind the credential. -/
def NeedsPrincipal : Operation → Prop
  | user _ | login => True
  | _ => False

theorem NeedsPrincipal.needsPayload {op : Operation} (hop : op.NeedsPrincipal) :
    op.NeedsPayload := by
  cases op <;> first | exact hop | trivial

/-- The answer to a payload of an operation that asks for nothing else. -/
def answerTo? (config : AuthConfig) : Operation → Option (Option Payload → Answer)
  | auth => some .payload
  | claims => some fun found =>
    .claims (found.map fun p => .ofPayload p config.identityClaim config.claims)
  | userHas policy _ => some fun found => .access ((Condition.parse policy).access config found)
  | userHasCondition condition _ => some fun found => .access (condition.access config found)
  | _ => none

/-- The operation hands a payload over. -/
def Injects : Operation → Prop
  | setAuth _ => True
  | _ => False

/-- The calls that the operation may make. -/
def MayCall (op : Operation) : Call → Prop
  | .find _ => op.NeedsPayload ∨ op = getToken ∨ op = logout
  | .decode _ => op.NeedsPayload
  | .lookup _ => op.NeedsPrincipal
  | .invalidate _ => op = logout
  | .login _ => op = login
  | .logout => op = logout

end Operation

namespace Session

variable {W : Type} {peers : Collaborators W} {config : AuthConfig} {op : Operation}
variable {s t : Session W}

/-- The session after an operation has set its guard. -/
def enter (config : AuthConfig) (op : Operation) (s : Session W) : Session W :=
  match op.guardArgument? with
  | some guardPrefix => s.setGuard config guardPrefix
  | none => s

/-- A step that a session takes in an operation. -/
inductive Step (peers : Collaborators W) (config : AuthConfig) :
    Operation → Session W → Session W → Prop where
  /-- A payload is handed over. -/
  | injected (p : Payload) (s : Session W) : Step peers config (.setAuth p) s (s.setPayload p)
  /-- The token is looked for because it was asked for, or in vain. -/
  | searched {op : Operation} {s : Session W}
      (hop : op = .getToken ∨
        op.NeedsPayload ∧ s.payload = none ∧ (s.findToken peers).1 = none) :
      Step peers config op s (s.findToken peers).2
  /-- A token is found that does not decode. -/
  | refused {op : Operation} {s : Session W} {token : String} {fault : DecodeFault}
      (hop : op.NeedsPayload) (hnone : s.payload = none)
      (hfind : (s.findToken peers).1 = some token)
      (hdecode : ((s.findToken peers).2.ask peers (.decode token)).1 = .error fault) :
      Step peers config op s ((s.findToken peers).2.ask peers (.decode token)).2
  /-- A token is found and decoded. -/
  | decoded {op : Operation} {s : Session W} {token : String} {p : Payload}
      (hop : op.NeedsPayload) (hnone : s.payload = none)
      (hfind : (s.findToken peers).1 = some token)
      (hdecode : ((s.findToken peers).2.ask peers (.decode token)).1 = .ok p) :
      Step peers config op s (((s.findToken peers).2.ask peers (.decode token)).2.setPayload p)
  /-- The lookup fails or gives no record. -/
  | missed {op : Operation} {s : Session W} {p : Payload} {key : String} {relations : List String}
      (hop : op.NeedsPrincipal) (hnone : s.principal = none) (hpayload : s.payload = some p)
      (hkey : p.key? config.identityClaim = some key)
      (hreply : ∀ u, (s.ask peers (.lookup (wanted config key relations))).1 ≠ .ok (some u)) :
      Step peers config op s (s.ask peers (.lookup (wanted config key relations))).2
  /-- The lookup gives a record. -/
  | recorded {op : Operation} {s : Session W} {p : Payload} {key : String}
      {relations : List String} {u : Principal}
      (hop : op.NeedsPrincipal) (hnone : s.principal = none) (hpayload : s.payload = some p)
      (hkey : p.key? config.identityClaim = some key)
      (hreply : (s.ask peers (.lookup (wanted config key relations))).1 = .ok (some u)) :
      Step peers config op s
        ((s.ask peers (.lookup (wanted config key relations))).2.setPrincipal u)
  /-- The principal is bound to the session. -/
  | bound {s : Session W} {u : Principal} (hsome : s.principal = some u) :
      Step peers config .login s (s.ask peers (.login u)).2
  /-- The session ends. -/
  | ended (s : Session W) : Step peers config .logout s (s.logout peers).2

/-- Any number of steps in an operation. -/
abbrev Steps (peers : Collaborators W) (config : AuthConfig) (op : Operation) :
    Session W → Session W → Prop :=
  Relation.ReflTransGen (Step peers config op)

/-! ## Operations take steps -/

theorem resolvePayload_steps (hop : op.NeedsPayload) (s : Session W) :
    Steps peers config op s (s.resolvePayload peers).2 := by
  refine resolvePayload_cases (motive := fun r => Steps peers config op s r.2) ?_ ?_ ?_ ?_
  · intro p _
    exact .refl
  · intro hnone hfind
    exact .single (.searched (.inr ⟨hop, hnone, hfind⟩))
  · intro token fault hnone hfind hdecode
    exact .single (.refused hop hnone hfind hdecode)
  · intro token p hnone hfind hdecode
    exact .single (.decoded hop hnone hfind hdecode)

theorem resolvePrincipal_steps (hop : op.NeedsPrincipal) (relations : List String)
    (s : Session W) :
    Steps peers config op s (s.resolvePrincipal peers config relations).2 := by
  have hsteps : Steps peers config op s (s.resolvePayload peers).2 :=
    resolvePayload_steps hop.needsPayload s
  have hpayload : (s.resolvePayload peers).2.payload = (s.resolvePayload peers).1 :=
    payload_resolvePayload
  have hprincipal : (s.resolvePayload peers).2.principal = s.principal := principal_resolvePayload
  refine resolvePrincipal_cases (motive := fun r => Steps peers config op s r.2)
    ?_ ?_ ?_ ?_ ?_ ?_
  · intro u _
    exact .refl
  · intro t _ ht
    rw [ht] at hsteps
    exact hsteps
  · intro p t _ ht _
    rw [ht] at hsteps
    exact hsteps
  · intro p t key fault hnone ht hkey hreply
    rw [ht] at hsteps hpayload hprincipal
    exact hsteps.tail (.missed hop (hprincipal.trans hnone) hpayload hkey fun u => by
      rw [hreply]; exact nofun)
  · intro p t key hnone ht hkey hreply
    rw [ht] at hsteps hpayload hprincipal
    exact hsteps.tail (.missed hop (hprincipal.trans hnone) hpayload hkey fun u => by
      rw [hreply]; exact nofun)
  · intro p t key u hnone ht hkey hreply
    rw [ht] at hsteps hpayload hprincipal
    exact hsteps.tail (.recorded hop (hprincipal.trans hnone) hpayload hkey hreply)

theorem login_steps (s : Session W) :
    Steps peers config .login s (s.login peers config).2 := by
  have hsteps : Steps peers config .login s (s.resolvePrincipal peers config []).2 :=
    resolvePrincipal_steps (by trivial) [] s
  have hprincipal : ∀ found, (s.resolvePrincipal peers config []).1 = .ok found →
      (s.resolvePrincipal peers config []).2.principal = found :=
    fun _ => principal_resolvePrincipal
  refine login_cases (motive := fun r => Steps peers config .login s r.2) ?_ ?_ ?_ ?_
  · intro fault t ht
    rw [ht] at hsteps
    exact hsteps
  · intro t ht
    rw [ht] at hsteps
    exact hsteps
  · intro u t fault ht _
    rw [ht] at hsteps hprincipal
    exact hsteps.tail (.bound (hprincipal (some u) rfl))
  · intro u t ht _
    rw [ht] at hsteps hprincipal
    exact hsteps.tail (.bound (hprincipal (some u) rfl))

/-- **An operation is a guard and steps.** -/
theorem perform_steps (op : Operation) (s : Session W) :
    Steps peers config op (s.enter config op) (s.perform peers config op).2 := by
  cases op with
  | setGuard guardPrefix => exact .refl
  | setAuth p => exact .single (.injected p s)
  | auth => exact resolvePayload_steps (by trivial) s
  | claims => exact resolvePayload_steps (by trivial) s
  | user relations => exact resolvePrincipal_steps (by trivial) relations s
  | userHas policy guardPrefix =>
    exact resolvePayload_steps (by trivial) (s.setGuard config guardPrefix)
  | userHasCondition condition guardPrefix =>
    exact resolvePayload_steps (by trivial) (s.setGuard config guardPrefix)
  | login => exact login_steps s
  | logout => exact .single (.ended s)
  | getToken => exact .single (.searched (.inl rfl))

/-! ## What steps preserve -/

section
variable (config op s)

@[simp]
theorem payload_enter : (s.enter config op).payload = s.payload := by
  unfold enter
  cases op.guardArgument? <;> rfl

@[simp]
theorem principal_enter : (s.enter config op).principal = s.principal := by
  unfold enter
  cases op.guardArgument? <;> rfl

@[simp]
theorem world_enter : (s.enter config op).world = s.world := by
  unfold enter
  cases op.guardArgument? <;> rfl

@[simp]
theorem journal_enter : (s.enter config op).journal = s.journal := by
  unfold enter
  cases op.guardArgument? <;> rfl

end

/-- What holds once the guard is set and is preserved by the steps holds after the operation. -/
theorem perform_preserves {P : Session W → Prop}
    (hstep : ∀ t t', Step peers config op t t' → P t → P t') (h : P (s.enter config op)) :
    P (s.perform peers config op).2 := by
  have hsteps : Steps peers config op (s.enter config op) (s.perform peers config op).2 :=
    perform_steps op s
  generalize (s.perform peers config op).2 = t at hsteps
  induction hsteps with
  | refl => exact h
  | tail _ hlast ih => exact hstep _ _ hlast ih

theorem findToken_talks (hop : op.NeedsPayload ∨ op = .getToken ∨ op = .logout)
    (s : Session W) : Talks peers op.MayCall s (s.findToken peers).2 :=
  .ask .refl hop

theorem invalidateToken_talks (s : Session W) :
    Talks peers (Operation.MayCall .logout) s (s.invalidateToken peers).2 := by
  have hfound : Talks peers (Operation.MayCall .logout) s (s.findToken peers).2 :=
    findToken_talks (.inr (.inr rfl)) s
  unfold invalidateToken
  rcases hr : s.findToken peers with ⟨_ | token, t⟩
  · rw [hr] at hfound
    exact hfound
  · rw [hr] at hfound
    exact .ask hfound rfl

theorem logout_talks (s : Session W) :
    Talks peers (Operation.MayCall .logout) s (s.logout peers).2 := by
  rw [snd_logout]
  exact .ask (.memory (invalidateToken_talks s) rfl rfl) rfl

/-- A step makes only calls that the operation may make. -/
theorem Step.talks (h : Step peers config op s t) : Talks peers op.MayCall s t := by
  cases h with
  | injected => exact .memory .refl rfl rfl
  | searched hop =>
    rcases hop with hop | ⟨hop, -⟩
    · exact findToken_talks (.inr (.inl hop)) s
    · exact findToken_talks (.inl hop) s
  | refused hop => exact .ask (findToken_talks (.inl hop) s) (by exact hop)
  | decoded hop => exact .memory (.ask (findToken_talks (.inl hop) s) (by exact hop)) rfl rfl
  | missed hop => exact .ask .refl (by exact hop)
  | recorded hop => exact .memory (.ask .refl (by exact hop)) rfl rfl
  | bound => exact .ask .refl rfl
  | ended => exact logout_talks s

theorem perform_talks (op : Operation) (s : Session W) :
    Talks peers op.MayCall s (s.perform peers config op).2 :=
  perform_preserves (P := Talks peers op.MayCall s) (fun _ _ hstep h => h.trans hstep.talks)
    (.memory .refl (world_enter config op s) (journal_enter config op s))

/-- What the steps preserve may limit the calls they make, and then it limits those of the
operation. -/
theorem perform_talks_while {I : Session W → Prop} {may : Call → Prop}
    (hkeeps : ∀ t t', Step peers config op t t' → I t → I t')
    (htalks : ∀ t t', Step peers config op t t' → I t → Talks peers may t t')
    (h : I (s.enter config op)) : Talks peers may s (s.perform peers config op).2 := by
  have hboth : I (s.perform peers config op).2 ∧
      Talks peers may s (s.perform peers config op).2 := by
    refine perform_preserves (P := fun t => I t ∧ Talks peers may s t)
      (fun t t' hstep ht => ⟨hkeeps t t' hstep ht.1, ht.2.trans (htalks t t' hstep ht.1)⟩)
      ⟨h, ?_⟩
    exact .memory .refl (world_enter config op s) (journal_enter config op s)
  exact hboth.2

/-- The exchanges of an operation are calls that it may make, with the replies of some world. -/
theorem exchange_of_mem {e : Exchange}
    (he : e ∈ (s.perform peers config op).2.exchangesSince s) :
    op.MayCall e.call ∧ ∃ w, e.reply = (peers e.call w).1 := by
  obtain ⟨-, h⟩ := (perform_talks op s).exchanges (P := fun _ => True) (fun _ _ _ _ => trivial)
    trivial
  obtain ⟨hcall, w, -, hreply⟩ := h e he
  exact ⟨hcall, w, hreply⟩

/-- What holds of an unchanged journal and is preserved by the steps holds after the operation. -/
theorem perform_since {P : Session W → Prop}
    (hstep : ∀ t t', Step peers config op t t' →
      s.journal <+: t.journal ∧ P t → s.journal <+: t'.journal ∧ P t')
    (h : (s.enter config op).exchangesSince s = [] → P (s.enter config op)) :
    P (s.perform peers config op).2 := by
  have hjournal : (s.enter config op).journal = s.journal := journal_enter config op s
  refine (perform_preserves hstep ⟨?_, h ?_⟩).2
  · exact hjournal ▸ List.prefix_rfl
  · rw [exchangesSince, hjournal, List.drop_length]

/-! ## What a session remembers -/

theorem Step.payload_eq {p : Payload} (h : Step peers config op s t) (hop : ¬ op.Injects)
    (hlogout : op ≠ .logout) (hp : s.payload = some p) : t.payload = some p := by
  cases h with
  | injected => exact absurd trivial hop
  | searched => exact hp
  | refused _ hnone => exact hp
  | decoded _ hnone =>
    rw [hp] at hnone
    cases hnone
  | missed => exact hp
  | recorded => exact hp
  | bound => exact hp
  | ended => exact absurd rfl hlogout

theorem Step.principal_eq {u : Principal} (h : Step peers config op s t) (hlogout : op ≠ .logout)
    (hu : s.principal = some u) : t.principal = some u := by
  cases h with
  | injected => exact hu
  | searched => exact hu
  | refused => exact hu
  | decoded => exact hu
  | missed => exact hu
  | recorded _ hnone =>
    rw [hu] at hnone
    cases hnone
  | bound => exact hu
  | ended => exact absurd rfl hlogout

theorem Step.principal_none (h : Step peers config op s t) (hop : ¬ op.NeedsPrincipal)
    (hs : s.principal = none) : t.principal = none := by
  cases h with
  | injected => exact hs
  | searched => exact hs
  | refused => exact hs
  | decoded => exact hs
  | missed => exact hs
  | recorded hneeds => exact absurd hneeds hop
  | bound => exact hs
  | ended => exact principal_logout

theorem guardPrefix_logout : (s.logout peers).2.guardPrefix = s.guardPrefix := by
  rw [snd_logout]
  unfold invalidateToken
  rcases hr : s.findToken peers with ⟨_ | token, t⟩
  · exact congrArg (fun r => r.2.guardPrefix) hr.symm
  · exact congrArg (fun r => r.2.guardPrefix) hr.symm

theorem Step.guardPrefix_eq (h : Step peers config op s t) : t.guardPrefix = s.guardPrefix := by
  cases h with
  | ended => exact guardPrefix_logout
  | _ => rfl

/-- Only the guard that comes with an operation changes the guard. -/
theorem guardPrefix_perform (op : Operation) (s : Session W) :
    (s.perform peers config op).2.guardPrefix = (s.enter config op).guardPrefix :=
  perform_preserves (P := fun t => t.guardPrefix = (s.enter config op).guardPrefix)
    (fun _ _ hstep h => hstep.guardPrefix_eq.trans h) rfl

/-- A remembered payload stays unless another is handed over or the session ends. -/
theorem payload_perform {p : Payload} (hop : ¬ op.Injects) (hlogout : op ≠ .logout)
    (hp : s.payload = some p) : (s.perform peers config op).2.payload = some p :=
  perform_preserves (P := fun t => t.payload = some p)
    (fun _ _ hstep => hstep.payload_eq hop hlogout) ((payload_enter config op s).trans hp)

/-- A remembered principal stays unless the session ends. -/
theorem principal_perform {u : Principal} (hlogout : op ≠ .logout) (hu : s.principal = some u) :
    (s.perform peers config op).2.principal = some u :=
  perform_preserves (P := fun t => t.principal = some u)
    (fun _ _ hstep => hstep.principal_eq hlogout) ((principal_enter config op s).trans hu)

/-- No principal comes to be remembered unless an operation asks for one. -/
theorem principal_perform_eq_none (hop : ¬ op.NeedsPrincipal) (hs : s.principal = none) :
    (s.perform peers config op).2.principal = none :=
  perform_preserves (P := fun t => t.principal = none)
    (fun _ _ hstep => hstep.principal_none hop) ((principal_enter config op s).trans hs)

/-! ## Answers -/

/-- An operation that asks for nothing but the payload is answered from the one that is remembered
afterwards. -/
theorem answer_of_payload {op : Operation} {answer : Option Payload → Answer}
    (hop : op.answerTo? config = some answer) (s : Session W) :
    (s.perform peers config op).1 = answer (s.perform peers config op).2.payload := by
  have hsame : ∀ t : Session W,
      (t.resolvePayload peers).2.payload = (t.resolvePayload peers).1 :=
    fun _ => payload_resolvePayload
  cases op with
  | auth =>
    cases hop
    exact congrArg Answer.payload (hsame s).symm
  | claims =>
    cases hop
    exact congrArg (fun found => Answer.claims (Option.map _ found)) (hsame s).symm
  | userHas policy guardPrefix =>
    cases hop
    exact congrArg (fun found => Answer.access ((Condition.parse policy).access config found))
      (hsame (s.setGuard config guardPrefix)).symm
  | userHasCondition condition guardPrefix =>
    cases hop
    exact congrArg (fun found => Answer.access (condition.access config found))
      (hsame (s.setGuard config guardPrefix)).symm
  | _ => cases hop

/-- A principal that is answered is remembered afterwards. -/
theorem principal_of_answer {u : Principal}
    (h : (s.perform peers config op).1 = .principal (.ok (some u))) :
    (s.perform peers config op).2.principal = some u := by
  cases op with
  | user relations =>
    have hanswer : Answer.principal (s.resolvePrincipal peers config relations).1 =
        .principal (.ok (some u)) := h
    injection hanswer with hanswer
    exact principal_resolvePrincipal hanswer
  | _ => cases h

/-- A remembered principal is answered, whatever relations are asked for. -/
theorem answer_of_principal {u : Principal} (hu : s.principal = some u) (relations : List String) :
    (s.perform peers config (.user relations)).1 = .principal (.ok (some u)) := by
  show Answer.principal (s.resolvePrincipal peers config relations).1 = _
  rw [resolvePrincipal_of_some hu]

end Session

end Clearance
