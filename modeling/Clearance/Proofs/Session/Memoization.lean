import Clearance.Memory.World
import Clearance.Proofs.Session.Freshness

/-!
# Memoization

What a session has resolved it does not resolve again. While it remembers a payload it decodes
nothing, looks for a token only when the token itself is asked for, and looks principals up under
the key of that payload alone (`Step.spares_credential`). While it remembers a principal it looks
none up (`Step.spares_records`). `memoized_until_forgotten` lifts both to courses, whatever changes
outside. What could not be resolved is not remembered, and the next operation that needs it asks
again; only for a payload without a key there is nobody to ask.
-/

namespace Clearance

namespace Operation

/-- The relations that are asked for with the principal. -/
def relations : Operation → List String
  | user relations => relations
  | _ => []

/-- The calls that the operation may make while a payload is remembered. -/
def MayCallWith (op : Operation) (config : AuthConfig) (p : Payload) : Call → Prop
  | .find _ => op = getToken
  | .decode _ => False
  | .lookup wanted => p.key? config.identityClaim = some wanted.value
  | _ => True

theorem NeedsPayload.keepsPayload {op : Operation} (hop : op.NeedsPayload) :
    op.KeepsPayload := by
  cases op with
  | setAuth p => exact absurd hop id
  | logout => exact absurd hop id
  | _ => exact ⟨id, nofun⟩

end Operation

/-- The call looks up no principal. -/
def Call.SparesRecords : Call → Prop
  | lookup _ => False
  | _ => True

namespace Turn

variable {W : Type}

/-- The turn asks for the token of the request. -/
def asksToken : Turn W → Bool
  | operation .getToken => true
  | _ => false

/-- The turn may come by a payload. -/
def SeeksPayload : Turn W → Prop
  | operation op => op.NeedsPayload ∨ op.Injects
  | change _ => False

/-- The turn may come by a principal. -/
def SeeksPrincipal : Turn W → Prop
  | operation op => op.NeedsPrincipal
  | change _ => False

end Turn

namespace Session

variable {W : Type} {peers : Collaborators W} {config : AuthConfig} {op : Operation}
variable {s t u : Session W} {turn : Turn W} {later : List (Turn W)} {p : Payload}

/-! ## While something is remembered -/

theorem Step.spares_credential (h : Step peers config op s t) (hlogout : op ≠ .logout)
    (hp : s.payload = some p) : Talks peers (op.MayCallWith config p) s t := by
  have hsome : s.payload ≠ none := by
    rw [hp]
    exact Option.some_ne_none p
  cases h with
  | injected => exact .memory .refl rfl rfl
  | searched hop =>
    rcases hop with rfl | ⟨-, hnone, -⟩
    · exact .ask .refl rfl
    · exact absurd hnone hsome
  | refused _ hnone => exact absurd hnone hsome
  | decoded _ hnone => exact absurd hnone hsome
  | missed _ _ hpayload hkey =>
    rw [hp] at hpayload
    cases hpayload
    exact .ask .refl (by exact hkey)
  | recorded _ _ hpayload hkey =>
    rw [hp] at hpayload
    cases hpayload
    exact .memory (.ask .refl (by exact hkey)) rfl rfl
  | bound => exact .ask .refl trivial
  | ended => exact absurd rfl hlogout

theorem Step.spares_records {v : Principal} (h : Step peers config op s t)
    (hlogout : op ≠ .logout) (hv : s.principal = some v) :
    Talks peers Call.SparesRecords s t := by
  have hsome : s.principal ≠ none := by
    rw [hv]
    exact Option.some_ne_none v
  cases h with
  | injected => exact .memory .refl rfl rfl
  | searched => exact .ask .refl trivial
  | refused => exact .ask (.ask .refl (by trivial)) (by trivial)
  | decoded => exact .memory (.ask (.ask .refl (by trivial)) (by trivial)) rfl rfl
  | missed _ hnone => exact absurd hnone hsome
  | recorded _ hnone => exact absurd hnone hsome
  | bound => exact .ask .refl trivial
  | ended => exact absurd rfl hlogout

/-- The calls of an operation while a payload is remembered. -/
theorem perform_spares_credential (hop : op.KeepsPayload) (hp : s.payload = some p) :
    Talks peers (op.MayCallWith config p) s (s.perform peers config op).2 :=
  perform_talks_while (I := fun t => t.payload = some p)
    (fun _ _ hstep => hstep.payload_eq hop.1 hop.2)
    (fun _ _ hstep => hstep.spares_credential hop.2) ((payload_enter config op s).trans hp)

/-- The calls of an operation while a principal is remembered. -/
theorem perform_spares_records {v : Principal} (hlogout : op ≠ .logout)
    (hv : s.principal = some v) :
    Talks peers Call.SparesRecords s (s.perform peers config op).2 :=
  perform_talks_while (I := fun t => t.principal = some v)
    (fun _ _ hstep => hstep.principal_eq hlogout)
    (fun _ _ hstep => hstep.spares_records hlogout) ((principal_enter config op s).trans hv)

/-- In a turn that keeps the payload the token is looked for exactly if it is asked for. -/
theorem countP_isFind_take (hp : s.payload = some p) (hkeeps : turn.KeepsPayload) :
    ((s.take peers config turn).exchangesSince s).countP Exchange.isFind =
      [turn].countP Turn.asksToken := by
  cases turn with
  | change f =>
    rw [show (s.take peers config (.change f)).exchangesSince s = [] from exchangesSince_self]
    rfl
  | operation op =>
    by_cases hop : op = .getToken
    · subst hop
      rw [show s.take peers config (.operation .getToken) = (s.findToken peers).2 from rfl,
        findToken, exchangesSince_ask]
      rfl
    · have hcalls : Talks peers (op.MayCallWith config p) s (s.perform peers config op).2 :=
        perform_spares_credential hkeeps hp
      rw [List.countP_eq_zero.2, List.countP_eq_zero.2]
      · intro turn hturn
        rw [List.mem_singleton.1 hturn]
        cases op <;> first | exact Bool.false_ne_true | exact absurd rfl hop
      · rintro ⟨call, r⟩ he
        have hmay : op.MayCallWith config p call := hcalls.may_of_mem he
        cases call with
        | find names => exact absurd hmay hop
        | _ => exact Bool.false_ne_true

/-- As long as the payload is kept the token is looked for once for every time it is asked for. -/
theorem countP_isFind_follow (hp : s.payload = some p)
    (hkeeps : ∀ turn ∈ later, turn.KeepsPayload) :
    (s.follow peers config later).payload = some p ∧
      ((s.follow peers config later).exchangesSince s).countP Exchange.isFind =
        later.countP Turn.asksToken := by
  induction later using List.reverseRecOn with
  | nil =>
    refine ⟨hp, ?_⟩
    rw [show s.follow peers config [] = s from rfl, exchangesSince_self]
    rfl
  | append_singleton later turn ih =>
    obtain ⟨hlater, hlast⟩ := List.forall_mem_append.1 hkeeps
    have hturn : turn.KeepsPayload := hlast turn (List.mem_singleton_self turn)
    obtain ⟨hsame, hcount⟩ := ih hlater
    rw [exchangesSince_follow_append, List.countP_append, List.countP_append, hcount,
      follow_concat, countP_isFind_take hsame hturn]
    exact ⟨payload_take hsame hturn, rfl⟩

/-- As long as the payload is kept nothing is decoded. -/
theorem not_decoded_of_keepsPayload (hp : s.payload = some p)
    (hkeeps : ∀ turn ∈ later, turn.KeepsPayload) (token : String)
    (r : Except DecodeFault Payload) :
    ⟨.decode token, r⟩ ∉ (s.follow peers config later).exchangesSince s := by
  have hall : (s.follow peers config later).payload = some p ∧
      ∀ e ∈ (s.follow peers config later).exchangesSince s, e ≠ ⟨.decode token, r⟩ := by
    refine exchanges_follow (P := fun s => s.payload = some p)
      (fun turn hturn s hs => ⟨payload_take hs (hkeeps turn hturn), fun e he heq => ?_⟩) hp
    obtain ⟨op, rfl⟩ := exists_operation_of_mem he
    rw [heq] at he
    refine perform_undecoded ?_ he
    rw [hs]
    exact Option.some_ne_none p
  exact fun he => hall.2 _ he rfl

theorem principal_take {v : Principal} (hv : s.principal = some v)
    (hkeeps : turn.KeepsPayload) : (s.take peers config turn).principal = some v := by
  cases turn with
  | operation op => exact principal_perform hkeeps.2 hv
  | change f => exact hv

/-- As long as no session ends the principal stays and none is looked up. -/
theorem not_looked_up_of_keepsPayload {v : Principal} (hv : s.principal = some v)
    (hkeeps : ∀ turn ∈ later, turn.KeepsPayload) :
    (s.follow peers config later).principal = some v ∧
      ∀ e ∈ (s.follow peers config later).exchangesSince s, e.call.SparesRecords := by
  refine exchanges_follow (P := fun s => s.principal = some v)
    (fun turn hturn s hs => ⟨principal_take hs (hkeeps turn hturn), fun e he => ?_⟩) hv
  obtain ⟨op, rfl⟩ := exists_operation_of_mem he
  exact (perform_spares_records (hkeeps _ hturn).2 hs).may_of_mem he

/-! ## Using what is remembered -/

/-- An operation has no other credential than the payload. If it asks for nothing else it is
answered from the payload, principals are looked up under the payload's key, and without a
principal it fails. -/
structure UsesOnly (config : AuthConfig) (p : Payload) (op : Operation) (s : Session W)
    (answered : Answer × Session W) : Prop where
  answer : ∀ answer, op.answerTo? config = some answer → answered.1 = answer (some p)
  lookup : ∀ lookup r, ⟨.lookup lookup, r⟩ ∈ answered.2.exchangesSince s →
    p.key? config.identityClaim = some lookup.value
  principal : op.NeedsPrincipal → answered.2.principal = none →
    ∃ fault, answered.1 = .principal (.error fault) ∨ answered.1 = .outcome (.error fault)

/-- A fault leaves no principal. -/
theorem principal_of_fault {relations : List String} {fault : Fault}
    (h : (s.resolvePrincipal peers config relations).1 = .error fault) :
    (s.resolvePrincipal peers config relations).2.principal = none := by
  have hsame : (s.resolvePayload peers).2.principal = s.principal := principal_resolvePayload
  revert h
  refine resolvePrincipal_cases (motive := fun r => r.1 = .error fault → r.2.principal = none)
    ?_ ?_ ?_ ?_ ?_ ?_
  · exact fun _ _ => nofun
  · exact fun _ _ _ => nofun
  · intro p t hnone ht _ _
    rw [ht] at hsame
    exact hsame.trans hnone
  · intro p t key fault hnone ht _ _ _
    rw [ht] at hsame
    exact hsame.trans hnone
  · intro p t key hnone ht _ _ _
    rw [ht] at hsame
    exact hsame.trans hnone
  · exact fun _ _ _ _ _ _ _ _ => nofun

/-- With a payload a principal that cannot be resolved is a fault. -/
theorem exists_fault_of_resolvePrincipal {relations : List String} (hp : s.payload = some p)
    (hnone : (s.resolvePrincipal peers config relations).2.principal = none) :
    ∃ fault, (s.resolvePrincipal peers config relations).1 = .error fault := by
  cases hr : (s.resolvePrincipal peers config relations).1 with
  | error fault => exact ⟨fault, rfl⟩
  | ok found =>
    have hfound := principal_resolvePrincipal hr
    rw [hnone] at hfound
    rw [← hfound] at hr
    exact absurd hr (resolvePrincipal_ne_none hp)

/-- With a payload a login that comes to no principal is a fault. -/
theorem exists_fault_of_login (hp : s.payload = some p)
    (hnone : (s.login peers config).2.principal = none) :
    ∃ fault, (s.login peers config).1 = .error fault := by
  revert hnone
  refine login_cases
    (motive := fun r => r.2.principal = none → ∃ fault, r.1 = .error fault) ?_ ?_ ?_ ?_
  · exact fun fault _ _ _ => ⟨fault, rfl⟩
  · intro t ht _
    have hsome : (s.resolvePrincipal peers config []).1 ≠ .ok none :=
      resolvePrincipal_ne_none hp
    rw [ht] at hsome
    exact absurd rfl hsome
  · exact fun _ _ fault _ _ _ => ⟨fault, rfl⟩
  · intro u t ht _ hforgotten
    have hu : (s.resolvePrincipal peers config []).2.principal = some u :=
      principal_resolvePrincipal (by rw [ht])
    rw [ht] at hu
    exact absurd (hu.symm.trans hforgotten) (Option.some_ne_none u)

theorem usesOnly_perform (hop : op.KeepsPayload) (hp : s.payload = some p) :
    UsesOnly config p op s (s.perform peers config op) := by
  refine ⟨fun answer hanswer => ?_, fun lookup r he => ?_, fun hneeds hnone => ?_⟩
  · rw [answer_of_payload hanswer s, payload_perform hop.1 hop.2 hp]
  · exact (perform_spares_credential hop hp).may_of_mem he
  · cases op with
    | user relations =>
      obtain ⟨fault, hfault⟩ := exists_fault_of_resolvePrincipal hp hnone
      exact ⟨fault, .inl (congrArg Answer.principal hfault)⟩
    | login =>
      obtain ⟨fault, hfault⟩ := exists_fault_of_login hp hnone
      refine ⟨fault, .inr ?_⟩
      exact congrArg (fun r => Answer.outcome (Except.map (fun _ => ()) r)) hfault
    | _ => exact absurd hneeds id

/-- The principal that is answered is the one remembered afterwards, and a fault leaves none. -/
theorem principal_perform_answer {found : Except Fault (Option Principal)}
    (h : (s.perform peers config op).1 = .principal found) :
    (s.perform peers config op).2.principal = found.toOption.join := by
  cases op with
  | user relations =>
    have hanswer : Answer.principal (s.resolvePrincipal peers config relations).1 =
        .principal found := h
    injection hanswer with hanswer
    subst hanswer
    cases hr : (s.resolvePrincipal peers config relations).1 with
    | ok found => exact principal_resolvePrincipal hr
    | error fault => exact principal_of_fault hr
  | _ => cases h

/-! ## Asking again -/

/-- The token is looked for under the guard, and if one is found it is decoded. -/
def AsksForPayload (s t : Session W) : Prop :=
  ∃ found, ⟨.find (candidates t.guardPrefix), found⟩ ∈ t.exchangesSince s ∧
    ∀ token, found = some token → ∃ r, ⟨.decode token, r⟩ ∈ t.exchangesSince s

theorem AsksForPayload.extend (h : AsksForPayload s t) (hst : s.journal <+: t.journal)
    (htu : t.journal <+: u.journal) (hguard : u.guardPrefix = t.guardPrefix) :
    AsksForPayload s u := by
  obtain ⟨found, hfind, hdecode⟩ := h
  refine ⟨found, ?_, fun token htoken => ?_⟩
  · rw [hguard]
    exact mem_exchangesSince_of_extends hst htu hfind
  · obtain ⟨r, he⟩ := hdecode token htoken
    exact ⟨r, mem_exchangesSince_of_extends hst htu he⟩

theorem asksForPayload_resolvePayload (hnone : s.payload = none) :
    AsksForPayload s (s.resolvePayload peers).2 := by
  have hfound : ⟨.find (candidates s.guardPrefix), (s.findToken peers).1⟩ ∈
      (s.findToken peers).2.exchangesSince s := by
    rw [findToken, exchangesSince_ask]
    exact List.mem_singleton_self _
  have hextends : s.journal <+: (s.findToken peers).2.journal := List.prefix_append _ _
  have hasks : ∀ token, (s.findToken peers).1 = some token → AsksForPayload s
      ((s.findToken peers).2.ask peers (.decode token)).2 := by
    refine fun token htoken => ⟨_, (mem_exchangesSince_ask hextends).2 (.inl hfound), ?_⟩
    intro token' htoken'
    obtain rfl : token = token' := Option.some.inj (htoken.symm.trans htoken')
    exact ⟨_, (mem_exchangesSince_ask hextends).2 (.inr rfl)⟩
  refine resolvePayload_cases (motive := fun r => AsksForPayload s r.2) ?_ ?_ ?_ ?_
  · intro p hp
    rw [hnone] at hp
    cases hp
  · intro _ hfind
    refine ⟨_, hfound, fun token htoken => ?_⟩
    rw [hfind] at htoken
    cases htoken
  · exact fun token _ _ hfind _ => hasks token hfind
  · exact fun token _ _ hfind _ => hasks token hfind

theorem resolvePayload_extends (s : Session W) :
    s.journal <+: (s.resolvePayload peers).2.journal := by
  have htalks : Talks peers (Operation.MayCall .auth) s (s.perform peers default .auth).2 :=
    perform_talks .auth s
  exact htalks.journal_extends

/-- The record is asked for under the key of the payload, which is asked for first if there is none
yet and is the same as before if there is one. For a remembered payload without a key nobody is
asked. -/
structure AsksForPrincipal (config : AuthConfig) (relations : List String) (s t : Session W) :
    Prop where
  payload : s.payload = none → AsksForPayload s t
  kept : ∀ p, s.payload = some p → t.payload = some p
  record : ∀ p key, t.payload = some p → p.key? config.identityClaim = some key →
    ∃ r, ⟨.lookup (wanted config key relations), r⟩ ∈ t.exchangesSince s
  keyless : ∀ p, s.payload = some p → p.key? config.identityClaim = none → t = s

section
variable {relations : List String}

theorem resolvePrincipal_extends (s : Session W) :
    s.journal <+: (s.resolvePrincipal peers config relations).2.journal :=
  (perform_talks (.user relations) s).journal_extends

/-- Without a remembered principal the payload is resolved first. -/
theorem resolvePayload_extends_resolvePrincipal (hnone : s.principal = none) :
    (s.resolvePayload peers).2.journal <+:
      (s.resolvePrincipal peers config relations).2.journal := by
  refine resolvePrincipal_cases
    (motive := fun r => (s.resolvePayload peers).2.journal <+: r.2.journal) ?_ ?_ ?_ ?_ ?_ ?_
  · intro v hv
    rw [hnone] at hv
    cases hv
  · intro t _ ht
    obtain rfl : (s.resolvePayload peers).2 = t := congrArg Prod.snd ht
    exact List.prefix_rfl
  · intro p t _ ht _
    obtain rfl : (s.resolvePayload peers).2 = t := congrArg Prod.snd ht
    exact List.prefix_rfl
  · intro p t key fault _ ht _ _
    rw [ht]
    exact List.prefix_append _ _
  · intro p t key _ ht _ _
    rw [ht]
    exact List.prefix_append _ _
  · intro p t key v _ ht _ _
    rw [ht]
    exact List.prefix_append _ _

/-- Without a remembered principal the record under the key is asked for. -/
theorem exists_lookup_of_resolvePrincipal {key : String} (hnone : s.principal = none)
    (hp : (s.resolvePrincipal peers config relations).2.payload = some p)
    (hkey : p.key? config.identityClaim = some key) :
    ∃ r, ⟨.lookup (wanted config key relations), r⟩ ∈
      (s.resolvePrincipal peers config relations).2.exchangesSince s := by
  have hsame : (s.resolvePayload peers).2.payload = (s.resolvePayload peers).1 :=
    payload_resolvePayload
  have hextends : s.journal <+: (s.resolvePayload peers).2.journal := resolvePayload_extends s
  -- What was looked up was looked up under the key of the payload that is remembered.
  have hlookup : ∀ q t key', s.resolvePayload peers = (some q, t) →
      q.key? config.identityClaim = some key' → t.payload = some p →
      ∃ r, ⟨.lookup (wanted config key relations), r⟩ ∈
        (t.ask peers (.lookup (wanted config key' relations))).2.exchangesSince s := by
    intro q t key' ht hkey' htp
    rw [ht] at hsame hextends
    obtain rfl : p = q := Option.some.inj (htp.symm.trans hsame)
    obtain rfl : key = key' := Option.some.inj (hkey.symm.trans hkey')
    exact ⟨_, (mem_exchangesSince_ask hextends).2 (.inr rfl)⟩
  revert hp
  refine resolvePrincipal_cases (motive := fun r => r.2.payload = some p →
    ∃ reply, ⟨.lookup (wanted config key relations), reply⟩ ∈ r.2.exchangesSince s)
    ?_ ?_ ?_ ?_ ?_ ?_
  · intro v hv _
    rw [hnone] at hv
    cases hv
  · intro t _ ht hp
    rw [ht] at hsame
    exact absurd (hp.symm.trans hsame) (Option.some_ne_none p)
  · intro q t _ ht hkeyless hp
    rw [ht] at hsame
    obtain rfl : p = q := Option.some.inj (hp.symm.trans hsame)
    exact absurd (hkey.symm.trans hkeyless) (Option.some_ne_none key)
  · exact fun q t key' _ _ ht hkey' _ hp => hlookup q t key' ht hkey' hp
  · exact fun q t key' _ ht hkey' _ hp => hlookup q t key' ht hkey' hp
  · exact fun q t key' _ _ ht hkey' _ hp => hlookup q t key' ht hkey' hp

theorem resolvePrincipal_of_keyless (hnone : s.principal = none) (hp : s.payload = some p)
    (hkey : p.key? config.identityClaim = none) :
    s.resolvePrincipal peers config relations = (.error (notFound config ""), s) :=
  resolvePrincipal_of_key hnone (resolvePayload_of_some hp) hkey

theorem asksForPrincipal_resolvePrincipal (hnone : s.principal = none) :
    AsksForPrincipal config relations s (s.resolvePrincipal peers config relations).2 := by
  have hkeeps : (Operation.user relations).KeepsPayload :=
    Operation.NeedsPayload.keepsPayload trivial
  have hkept : ∀ p, s.payload = some p →
      (s.perform peers config (.user relations)).2.payload = some p :=
    fun _ => payload_perform hkeeps.1 hkeeps.2
  refine ⟨fun hpayload => ?_, hkept, fun p key hp hkey => ?_, fun p hp hkey => ?_⟩
  · have hguard : (s.resolvePrincipal peers config relations).2.guardPrefix =
        (s.resolvePayload peers).2.guardPrefix := by
      have hauth : (s.perform peers config .auth).2.guardPrefix = s.guardPrefix :=
        guardPrefix_perform .auth s
      exact (guardPrefix_perform (.user relations) s).trans hauth.symm
    exact (asksForPayload_resolvePayload hpayload).extend (resolvePayload_extends s)
      (resolvePayload_extends_resolvePrincipal hnone) hguard
  · exact exists_lookup_of_resolvePrincipal hnone hp hkey
  · rw [resolvePrincipal_of_keyless hnone hp hkey]

end

/-- Whoever was asked for the principal was asked before it was bound. -/
theorem AsksForPrincipal.login {v : Principal} (h : AsksForPrincipal config [] s t)
    (hnone : s.principal = none) (ht : s.resolvePrincipal peers config [] = (.ok (some v), t)) :
    AsksForPrincipal config [] s (t.ask peers (.login v)).2 := by
  have hst : s.journal <+: t.journal := by
    have hextends : s.journal <+: (s.resolvePrincipal peers config []).2.journal :=
      resolvePrincipal_extends s
    rw [ht] at hextends
    exact hextends
  have htu : t.journal <+: (t.ask peers (.login v)).2.journal := List.prefix_append _ _
  refine ⟨fun hpayload => (h.payload hpayload).extend hst htu rfl, h.kept,
    fun p key hp hkey => ?_, fun p hp hkey => ?_⟩
  · obtain ⟨r, he⟩ := h.record p key hp hkey
    exact ⟨r, mem_exchangesSince_of_extends hst htu he⟩
  · rw [resolvePrincipal_of_keyless hnone hp hkey] at ht
    cases ht

theorem asksForPrincipal_perform (hop : op.NeedsPrincipal) (hnone : s.principal = none) :
    AsksForPrincipal config op.relations s (s.perform peers config op).2 := by
  cases op with
  | user relations => exact asksForPrincipal_resolvePrincipal hnone
  | login =>
    have hasks : AsksForPrincipal config [] s (s.resolvePrincipal peers config []).2 :=
      asksForPrincipal_resolvePrincipal hnone
    refine login_cases (motive := fun r => AsksForPrincipal config [] s r.2) ?_ ?_ ?_ ?_
    · intro fault t ht
      rw [ht] at hasks
      exact hasks
    · intro t ht
      rw [ht] at hasks
      exact hasks
    · intro v t fault ht _
      rw [ht] at hasks
      exact hasks.login hnone ht
    · intro v t ht _
      rw [ht] at hasks
      exact hasks.login hnone ht
  | _ => exact absurd hop id

theorem asksForPayload_perform (hop : op.NeedsPayload) (hpayload : s.payload = none)
    (hprincipal : s.principal = none) : AsksForPayload s (s.perform peers config op).2 := by
  cases op with
  | auth => exact asksForPayload_resolvePayload hpayload
  | claims => exact asksForPayload_resolvePayload hpayload
  | userHas policy guardPrefix =>
    exact asksForPayload_resolvePayload (s := s.setGuard config guardPrefix) hpayload
  | userHasCondition condition guardPrefix =>
    exact asksForPayload_resolvePayload (s := s.setGuard config guardPrefix) hpayload
  | user relations => exact (asksForPrincipal_perform (by trivial) hprincipal).payload hpayload
  | login => exact (asksForPrincipal_perform (by trivial) hprincipal).payload hpayload
  | _ => exact absurd hop id

/-- Nothing comes to be remembered in turns that do not seek it. -/
theorem payload_follow_eq_none (hlater : ∀ turn ∈ later, ¬ turn.SeeksPayload)
    (hs : s.payload = none) : (s.follow peers config later).payload = none := by
  refine follow_preserves (P := fun s => s.payload = none) (fun turn hturn s hs => ?_) hs
  cases turn with
  | change f => exact hs
  | operation op =>
    cases hp : (s.perform peers config op).2.payload with
    | none => exact hp
    | some p =>
      have hidle := hlater _ hturn
      rcases perform_obtained hp with hbefore | rfl | ⟨token, he⟩
      · rw [hs] at hbefore
        cases hbefore
      · exact absurd (.inr trivial) hidle
      · exact absurd (.inl (exchange_of_mem he).1) hidle

theorem principal_follow_eq_none (hlater : ∀ turn ∈ later, ¬ turn.SeeksPrincipal)
    (hs : s.principal = none) : (s.follow peers config later).principal = none := by
  refine follow_preserves (P := fun s => s.principal = none) (fun turn hturn s hs => ?_) hs
  cases turn with
  | change f => exact hs
  | operation op => exact principal_perform_eq_none (hlater _ hturn) hs

/-! ## The life of what is resolved -/

/-- **What is resolved is used until it is forgotten.** What an operation answers is what the
session remembers afterwards. Once an operation has resolved a payload, and as long as no session
ends and no other payload is handed over, every operation uses that payload only, nothing is
decoded, and the token is looked for only where the token itself is asked for; a principal that has
been resolved is answered whatever relations are named, and none is looked up. A payload or
principal that could not be resolved is not remembered, and the next operation that needs it asks
again; only for a principal behind a remembered payload without a key there is nobody to ask. -/
theorem memoized_until_forgotten (peers : Collaborators W) (config : AuthConfig) (world : W)
    (before later : List (Turn W)) (op next : Operation) :
    let reached := (ofConfig config world).follow peers config before
    let performed := reached.perform peers config op
    let s := performed.2.follow peers config later
    let answered := s.perform peers config next
    ((∀ answer, op.answerTo? config = some answer → performed.1 = answer performed.2.payload) ∧
      ∀ found, performed.1 = .principal found → performed.2.principal = found.toOption.join) ∧
    (op.NeedsPayload → ∀ p, performed.2.payload = some p → (∀ turn ∈ later, turn.KeepsPayload) →
      (next.NeedsPayload → UsesOnly config p next s answered) ∧
      (∀ token r, ⟨.decode token, r⟩ ∉ s.exchangesSince performed.2) ∧
      (s.exchangesSince performed.2).countP Exchange.isFind = later.countP Turn.asksToken) ∧
    (op.NeedsPrincipal → ∀ u, performed.2.principal = some u →
      (∀ turn ∈ later, turn.KeepsPayload) →
      (∀ relations, next = .user relations → answered.1 = .principal (.ok (some u))) ∧
      ∀ lookup r, ⟨.lookup lookup, r⟩ ∉ s.exchangesSince performed.2) ∧
    (op.NeedsPayload → performed.2.payload = none → (∀ turn ∈ later, ¬ turn.SeeksPayload) →
      next.NeedsPayload → AsksForPayload s answered.2) ∧
    (op.NeedsPrincipal → performed.2.principal = none → (∀ turn ∈ later, ¬ turn.SeeksPrincipal) →
      next.NeedsPrincipal → AsksForPrincipal config next.relations s answered.2) := by
  intro reached performed s answered
  have hgrounded : Grounded reached := follow_grounded (fun _ => rfl) before
  refine ⟨⟨fun answer hop => answer_of_payload hop reached, fun found => principal_perform_answer⟩,
    fun _ p hp hkeeps => ?_, fun _ u hu hkeeps => ?_, fun _ hnone hlater hnext => ?_,
    fun _ hnone hlater hnext => ?_⟩
  · obtain ⟨hsame, hcount⟩ := countP_isFind_follow hp hkeeps
    refine ⟨fun hnext => usesOnly_perform ?_ hsame, not_decoded_of_keepsPayload hp hkeeps, hcount⟩
    exact hnext.keepsPayload
  · obtain ⟨hsame, hspared⟩ := not_looked_up_of_keepsPayload hu hkeeps
    refine ⟨?_, fun lookup r he => hspared _ he⟩
    rintro relations rfl
    exact answer_of_principal hsame relations
  · have hprincipal : performed.2.principal = none := perform_grounded op hgrounded hnone
    have hs : s.payload = none := payload_follow_eq_none hlater hnone
    have hboth : Grounded s := follow_grounded (fun _ => hprincipal) later
    exact asksForPayload_perform hnext hs (hboth hs)
  · exact asksForPrincipal_perform hnext (principal_follow_eq_none hlater hnone)

/-- A token that was decoded once is used for the principal after it was revoked and under a guard
under which the request has none; it has been looked for once more because it was asked for. -/
theorem auth_decodes_once :
    let memory := (Memory.ofRequest ⟨[⟨"authorization", "t"⟩], []⟩ true).register "t"
      ⟨[("authId", .text "u-1")]⟩
    let performed := (ofConfig .standard memory).perform Memory.peers .standard .auth
    let s := performed.2.follow Memory.peers .standard
      [.change fun m => m.revoke "t", .operation (.setGuard (some "admin_")), .operation .getToken]
    UsesOnly .standard ⟨[("authId", .text "u-1")]⟩ (.user []) s
        (s.perform Memory.peers .standard (.user [])) ∧
      (s.exchangesSince performed.2).countP Exchange.isFind = 1 := by
  intro memory performed s
  obtain ⟨huses, -, hcount⟩ := (memoized_until_forgotten Memory.peers .standard memory []
    [.change fun m => m.revoke "t", .operation (.setGuard (some "admin_")), .operation .getToken]
    .auth (.user [])).2.1 trivial ⟨[("authId", .text "u-1")]⟩ (by decide +kernel) (by
      intro turn hturn
      simp only [List.mem_cons, List.not_mem_nil, or_false] at hturn
      rcases hturn with rfl | rfl | rfl
      · trivial
      · exact ⟨id, nofun⟩
      · exact ⟨id, nofun⟩)
  exact ⟨huses trivial, hcount⟩

/-- Two limits of this. A principal that was found for an earlier payload is answered although
another payload has been resolved since, for which it was not looked up. And where a principal could
not be resolved because the payload has no key, the next operation that needs one asks nobody. -/
theorem principal_of_other_payload_and_nobody_asked :
    (¬ ∀ (W : Type) (peers : Collaborators W) (config : AuthConfig) (world : W)
      (ops : List Operation) (relations : List String) (p : Payload) (u : Principal),
      let s := (ofConfig config world).after peers config ops
      let resolved := s.perform peers config .auth
      let answered := resolved.2.perform peers config (.user relations)
      resolved.1 = .payload (some p) → answered.1 = .principal (.ok (some u)) →
      ∃ lookup, p.key? config.identityClaim = some lookup.value ∧
        ⟨.lookup lookup, .ok (some u)⟩ ∈ answered.2.journal) ∧
    ¬ ∀ (W : Type) (peers : Collaborators W) (config : AuthConfig) (world : W)
      (ops : List Operation) (relations : List String) (fault : Fault),
      let s := (ofConfig config world).after peers config ops
      let failed := s.perform peers config (.user relations)
      failed.1 = .principal (.error fault) →
      (failed.2.perform peers config (.user relations)).2.exchangesSince failed.2 ≠ [] := by
  constructor
  · intro hall
    obtain ⟨lookup, hkey, he⟩ := hall Memory Memory.peers .standard
      { Memory.ofRequest default true with
        records := ⟨[⟨"User", [("auth_id", .text "u-1")], .empty⟩], 0⟩ }
      [.setAuth ⟨[("authId", .text "u-1")]⟩, .user [], .setAuth ⟨[("authId", .text "u-2")]⟩] []
      ⟨[("authId", .text "u-2")]⟩ ⟨"User", [("auth_id", .text "u-1")], .empty⟩
      (by decide +kernel) (by decide +kernel)
    -- The only lookup was made under the key of the first payload.
    have hlookup : lookup = wanted .standard "u-1" [] := by
      have hmem := List.mem_map_of_mem (f := Exchange.call) he
      rw [show List.map Exchange.call _ = [Call.lookup (wanted .standard "u-1" [])] by
        decide +kernel, List.mem_singleton] at hmem
      injection hmem
    rw [hlookup] at hkey
    exact absurd hkey (by decide +kernel)
  · intro hall
    exact hall Memory Memory.peers .standard (.ofRequest default true) [.setAuth ⟨[]⟩] []
      (notFound .standard "") (by decide +kernel) (by decide +kernel)

end Session

end Clearance
