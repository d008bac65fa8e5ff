import Clearance.Memory.World
import Clearance.Proofs.Session.Decision
import Clearance.Proofs.Session.Memoization

/-!
# Lookups of principals

Without a remembered principal a session resolves the credential first and then goes on from the
identity in its claim sets: with no credential it answers that there is no user, with no identity
that there is none under the empty key, and neither asks for a record. Otherwise the record under
the identity is looked up, once. `perform_user_of_auth`, `perform_user_of_keyless` and
`perform_user_of_key` are the three courses, and `user_outcome` says what comes of them. No step of
a session looks a record up under the empty key (`Step.keyed`), and so no course does.
-/

namespace Clearance

/-- The lookup that the exchange is, if it is one. -/
def Exchange.lookup? : Exchange → Option Lookup
  | ⟨.lookup wanted, _⟩ => some wanted
  | _ => none

/-- The call looks up nothing under the empty key. -/
def Call.IsKeyed : Call → Prop
  | lookup wanted => wanted.value ≠ ""
  | _ => True

theorem Exchange.lookup?_eq_some_iff {e : Exchange} {wanted : Lookup} :
    e.lookup? = some wanted ↔ e.call = .lookup wanted := by
  obtain ⟨call, reply⟩ := e
  cases call with
  | lookup other => simp [lookup?]
  | _ => exact ⟨nofun, nofun⟩

/-- A lookup key is not empty. -/
theorem Payload.ne_empty_of_key? {p : Payload} {name key : String} (h : p.key? name = some key) :
    key ≠ "" := by
  unfold key? at h
  simpa using (Option.filter_eq_some_iff.1 h).2

namespace Session

variable {W : Type} {peers : Collaborators W} {config : AuthConfig} {op : Operation}
variable {base s t : Session W} {relations : List String} {p : Payload}

/-- What has been looked up since an earlier state of the session, in order. -/
def lookupsSince (s base : Session W) : List Lookup :=
  (s.exchangesSince base).filterMap Exchange.lookup?

/-! ## Counting lookups -/

theorem lookupsSince_ask (h : base.journal <+: s.journal) (wanted : Lookup) :
    (s.ask peers (.lookup wanted)).2.lookupsSince base = s.lookupsSince base ++ [wanted] := by
  rw [lookupsSince, exchangesSince_trans h (List.prefix_append _ _), exchangesSince_ask,
    List.filterMap_append]
  rfl

/-- Resolving the credential looks nothing up. -/
theorem lookupsSince_auth : (s.perform peers config .auth).2.lookupsSince s = [] := by
  refine List.filterMap_eq_nil_iff.2 fun e he => ?_
  obtain ⟨call, reply⟩ := e
  have hcall : Operation.MayCall .auth call := (perform_talks .auth s).may_of_mem he
  cases call with
  | lookup wanted => exact absurd hcall id
  | _ => rfl

/-! ## The courses of a resolution -/

/-- The claim sets are those of the payload that is resolved, and so is the identity in them. -/
theorem exists_payload_of_claims {claims : ClaimSet}
    (h : (s.perform peers config .claims).1 = .claims (some claims)) :
    ∃ p, (s.perform peers config .auth).1 = .payload (some p) ∧
      p.key? config.identityClaim = claims.authId := by
  have hanswer : (s.resolvePayload peers).1.map
      (fun p => ClaimSet.ofPayload p config.identityClaim config.claims) = some claims :=
    Answer.claims.inj h
  obtain ⟨p, hp, rfl⟩ := Option.map_eq_some_iff.1 hanswer
  exact ⟨p, congrArg Answer.payload hp, rfl⟩

/-- Without a credential there is no user, and nobody else is asked. -/
theorem perform_user_of_auth (hnone : s.principal = none)
    (hauth : (s.perform peers config .auth).1 = .payload none) :
    s.perform peers config (.user relations) =
      (.principal (.ok none), (s.perform peers config .auth).2) := by
  have hpayload : s.resolvePayload peers = (none, (s.perform peers config .auth).2) :=
    Prod.ext (Answer.payload.inj hauth) rfl
  exact congrArg (fun r => (Answer.principal r.1, r.2)) (resolvePrincipal_of_payload hnone hpayload)

/-- Without an identity there is no principal, and nobody else is asked. -/
theorem perform_user_of_keyless (hnone : s.principal = none)
    (hauth : (s.perform peers config .auth).1 = .payload (some p))
    (hkey : p.key? config.identityClaim = none) :
    s.perform peers config (.user relations) =
      (.principal (.error (notFound config "")), (s.perform peers config .auth).2) := by
  have hpayload : s.resolvePayload peers = (some p, (s.perform peers config .auth).2) :=
    Prod.ext (Answer.payload.inj hauth) rfl
  exact congrArg (fun r => (Answer.principal r.1, r.2)) (resolvePrincipal_of_key hnone hpayload hkey)

/-- With an identity the record under it is looked up. -/
theorem perform_user_of_key {key : String} (hnone : s.principal = none)
    (hauth : (s.perform peers config .auth).1 = .payload (some p))
    (hkey : p.key? config.identityClaim = some key) :
    s.perform peers config (.user relations) =
      match (s.perform peers config .auth).2.ask peers (.lookup (wanted config key relations)) with
      | (.error fault, t) => (.principal (.error fault), t)
      | (.ok none, t) => (.principal (.error (notFound config key)), t)
      | (.ok (some u), t) => (.principal (.ok (some u)), t.setPrincipal u) := by
  have hpayload : s.resolvePayload peers = (some p, (s.perform peers config .auth).2) :=
    Prod.ext (Answer.payload.inj hauth) rfl
  refine (congrArg (fun r => (Answer.principal r.1, r.2))
    (resolvePrincipal_of_lookup hnone hpayload hkey)).trans ?_
  rcases (s.perform peers config .auth).2.ask peers (.lookup (wanted config key relations)) with
    ⟨fault | (_ | u), t⟩
  · rfl
  · rfl
  · rfl

/-- With an identity one record is looked up, whatever comes of it. -/
theorem lookupsSince_user {key : String} (hnone : s.principal = none)
    (hauth : (s.perform peers config .auth).1 = .payload (some p))
    (hkey : p.key? config.identityClaim = some key) :
    (s.perform peers config (.user relations)).2.lookupsSince s =
      [wanted config key relations] := by
  have hasked : s.journal <+: (s.perform peers config .auth).2.journal :=
    (perform_talks .auth s).journal_extends
  have hlookups : ((s.perform peers config .auth).2.ask peers
      (.lookup (wanted config key relations))).2.lookupsSince s =
        [wanted config key relations] := by
    rw [lookupsSince_ask hasked, lookupsSince_auth, List.nil_append]
  rw [perform_user_of_key hnone hauth hkey]
  rcases hreply : (s.perform peers config .auth).2.ask peers
    (.lookup (wanted config key relations)) with ⟨fault | (_ | u), t⟩
  all_goals
    rw [hreply] at hlookups
    exact hlookups

/-- The payload that is resolved is remembered, whatever comes of the lookup. -/
theorem payload_resolvePrincipal (hnone : s.principal = none) :
    (s.resolvePrincipal peers config relations).2.payload = (s.resolvePayload peers).1 := by
  have hsame : ∀ r t, s.resolvePayload peers = (r, t) → t.payload = (s.resolvePayload peers).1 := by
    intro r t ht
    have hkept : (s.resolvePayload peers).2.payload = (s.resolvePayload peers).1 :=
      payload_resolvePayload
    rwa [ht] at hkept ⊢
  -- Neither the lookup nor remembering a principal changes the payload.
  refine resolvePrincipal_cases
    (motive := fun r => r.2.payload = (s.resolvePayload peers).1) ?_ ?_ ?_ ?_ ?_ ?_
  · intro u hu
    rw [hnone] at hu
    cases hu
  · exact fun t _ ht => hsame none t ht
  · exact fun p t _ ht _ => hsame (some p) t ht
  · exact fun p t _ _ _ ht _ _ => hsame (some p) t ht
  · exact fun p t _ _ ht _ _ => hsame (some p) t ht
  · exact fun p t _ _ _ ht _ _ => hsame (some p) t ht

/-! ## Lookups of a course -/

theorem Step.keyed (h : Step peers config op s t) : Talks peers Call.IsKeyed s t := by
  cases h with
  | injected => exact .memory .refl rfl rfl
  | searched => exact .ask .refl trivial
  | refused => exact .ask (.ask .refl (by trivial)) (by trivial)
  | decoded => exact .memory (.ask (.ask .refl (by trivial)) (by trivial)) rfl rfl
  | missed _ _ _ hkey => exact .ask .refl (by exact Payload.ne_empty_of_key? hkey)
  | recorded _ _ _ hkey =>
    exact .memory (.ask .refl (by exact Payload.ne_empty_of_key? hkey)) rfl rfl
  | bound => exact .ask .refl trivial
  | ended =>
    refine (logout_talks s).mono fun call hcall => ?_
    cases call with
    | lookup wanted => exact absurd hcall id
    | _ => trivial

/-- No record is looked up under the empty key. -/
theorem follow_keyed (start : Session W) (course : List (Turn W)) :
    ∀ wanted ∈ (start.follow peers config course).lookupsSince start, wanted.value ≠ "" := by
  have hcourse : ∀ e ∈ (start.follow peers config course).exchangesSince start, e.call.IsKeyed := by
    refine (exchanges_follow (P := fun _ => True) (fun turn _ s _ => ⟨trivial, fun e he => ?_⟩)
      trivial).2
    obtain ⟨op, rfl⟩ := exists_operation_of_mem he
    have htalks : Talks peers Call.IsKeyed s (s.perform peers config op).2 :=
      perform_talks_while (I := fun _ => True) (fun _ _ _ _ => trivial)
        (fun _ _ hstep _ => hstep.keyed) trivial
    exact htalks.may_of_mem he
  intro wanted hwanted
  obtain ⟨e, he, hlookup⟩ := List.mem_filterMap.1 hwanted
  have hkeyed := hcourse e he
  rw [Exchange.lookup?_eq_some_iff.1 hlookup] at hkeyed
  exact hkeyed

/-! ## Outcomes -/

/-- **What asking for the user comes to.** Let a session remember no principal. It answers that there
is no user exactly if asking for the payload gives none, and then it looks nothing up. If the claim
sets of the payload have no identity, there is no principal under the empty key, and nothing is
looked up either. Otherwise the record of the configured model with this identity in the configured
field is looked up, once and with the relations that were named; a fault of the lookup is the
answer, without a record there is no principal under the identity, and a record is answered and
remembered. A fault leaves no principal but the payload, so that no later operation has to decode
one. In no course from any state is a record looked up under the empty key. -/
theorem user_outcome (peers : Collaborators W) (config : AuthConfig) (hnone : s.principal = none)
    (relations : List String) :
    let asked := s.perform peers config .auth
    let claimed := s.perform peers config .claims
    let answered := s.perform peers config (.user relations)
    (answered.1 = .principal (.ok none) ↔ asked.1 = .payload none) ∧
    (asked.1 = .payload none → answered.2.lookupsSince s = []) ∧
    (∀ claims, claimed.1 = .claims (some claims) → claims.authId = none →
      answered.1 =
          .principal (.error (.principalNotFound config.principalModel config.storeKey "")) ∧
        answered.2.lookupsSince s = []) ∧
    (∀ claims id, claimed.1 = .claims (some claims) → claims.authId = some id →
      answered.2.lookupsSince s = [⟨config.principalModel, config.storeKey, id, relations⟩] ∧
        answered =
          match asked.2.ask peers
            (.lookup ⟨config.principalModel, config.storeKey, id, relations⟩) with
          | (.error fault, looked) => (.principal (.error fault), looked)
          | (.ok none, looked) =>
            (.principal (.error (.principalNotFound config.principalModel config.storeKey id)),
              looked)
          | (.ok (some u), looked) => (.principal (.ok (some u)), looked.setPrincipal u)) ∧
    (∀ fault, answered.1 = .principal (.error fault) →
      answered.2.principal = none ∧
        ∃ p, asked.1 = .payload (some p) ∧ answered.2.payload = some p ∧
          ∀ op token r,
            ⟨.decode token, r⟩ ∉
              (answered.2.perform peers config op).2.exchangesSince answered.2) ∧
    ∀ (start : Session W) (course : List (Turn W)),
      ∀ lookup ∈ (start.follow peers config course).lookupsSince start, lookup.value ≠ "" := by
  intro asked claimed answered
  have hanonymous : asked.1 = .payload none → answered = (.principal (.ok none), asked.2) :=
    perform_user_of_auth hnone
  have hresolving : asked.2.lookupsSince s = [] := lookupsSince_auth
  refine ⟨⟨fun hok => ?_, fun hauth => ?_⟩, fun hauth => ?_, fun claims hclaims hid => ?_,
    fun claims id hclaims hid => ?_, fun fault hfault => ?_, follow_keyed⟩
  · have hresolved : (s.resolvePrincipal peers config relations).1 = .ok none :=
      Answer.principal.inj hok
    exact congrArg Answer.payload (resolvePayload_of_anonymous hresolved)
  · exact congrArg Prod.fst (hanonymous hauth)
  · rw [hanonymous hauth]
    exact hresolving
  · obtain ⟨p, hp, hkey⟩ := exists_payload_of_claims hclaims
    have hanswered : answered = (.principal (.error (notFound config "")), asked.2) :=
      perform_user_of_keyless hnone hp (hkey.trans hid)
    rw [hanswered]
    exact ⟨rfl, hresolving⟩
  · obtain ⟨p, hp, hkey⟩ := exists_payload_of_claims hclaims
    exact ⟨lookupsSince_user hnone hp (hkey.trans hid),
      perform_user_of_key hnone hp (hkey.trans hid)⟩
  · have hresolved : (s.resolvePrincipal peers config relations).1 = .error fault :=
      Answer.principal.inj hfault
    have hkept : answered.2.payload = (s.resolvePayload peers).1 := payload_resolvePrincipal hnone
    refine ⟨principal_of_fault hresolved, ?_⟩
    cases hp : (s.resolvePayload peers).1 with
    | none =>
      rw [hanonymous (congrArg Answer.payload hp)] at hfault
      cases hfault
    | some p =>
      have hsome : answered.2.payload = some p := hkept.trans hp
      refine ⟨p, congrArg Answer.payload hp, hsome, fun op token r => perform_undecoded ?_⟩
      rw [hsome]
      exact Option.some_ne_none p

/-- A record is found under an identity that the payload gives as a number, with the one relation
that was named. A payload whose identity is an object leads to no lookup. -/
theorem user_found_and_user_without_identity :
    let u : Principal := ⟨"User", [("auth_id", .text "7")], .empty⟩
    let memory := (Memory.ofRequest ⟨[⟨"token", "t"⟩], []⟩ true).insert u
    let numbered : Session Memory :=
      ofConfig .standard
        (memory.register "t" ⟨[("authId", .number (.whole ⟨7, by decide, by decide⟩))]⟩)
    let nameless : Session Memory :=
      ofConfig .standard (memory.register "t" ⟨[("authId", .object [])]⟩)
    let found := numbered.perform Memory.peers .standard (.user ["team"])
    let refused := nameless.perform Memory.peers .standard (.user ["team"])
    (found.2.lookupsSince numbered = [⟨"User", "auth_id", "7", ["team"]⟩] ∧
        found.1 = .principal (.ok (some u))) ∧
      refused.1 = .principal (.error (.principalNotFound "User" "auth_id" "")) ∧
        refused.2.lookupsSince nameless = [] := by
  intro u memory numbered nameless found refused
  have hnumber : (numbered.perform Memory.peers .standard .claims).1 =
      .claims (some ⟨some "7", ∅, ∅, ∅⟩) := by decide +kernel
  have hobject : (nameless.perform Memory.peers .standard .claims).1 =
      .claims (some ⟨none, ∅, ∅, ∅⟩) := by decide +kernel
  obtain ⟨-, -, -, hkeyed, -⟩ :=
    user_outcome Memory.peers .standard (s := numbered) rfl ["team"]
  obtain ⟨-, -, hkeyless, -⟩ :=
    user_outcome Memory.peers .standard (s := nameless) rfl ["team"]
  obtain ⟨hlookups, hanswered⟩ := hkeyed _ _ hnumber rfl
  exact ⟨⟨hlookups, (congrArg Prod.fst hanswered).trans (by decide +kernel)⟩,
    hkeyless _ hobject rfl⟩

end Session

end Clearance
