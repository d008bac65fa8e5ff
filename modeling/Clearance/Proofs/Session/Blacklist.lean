import Clearance.Proofs.Session.Course
import Clearance.Proofs.Session.Revocation

/-!
# Revoked tokens

Tokens in memory are written in two ways: a token is registered with its payload, or it is revoked.
Revocation is for good, for nothing takes a token from the revoked ones (`follow_grows`) and a token
that is registered again stays revoked. With tokens that check revocations a revoked token is
therefore never decoded again (`not_decoded_follow`). `revoked_never_accepted` says what is left of
it: a payload that was decoded before the revocation is answered as long as it is remembered.
-/

namespace Clearance

/-! ## Writing to the tokens -/

namespace Tokens

/-- A write to the tokens. -/
inductive Write where
  /-- A token is registered with the payload it decodes to. -/
  | register (token : String) (payload : Payload)
  /-- A token is revoked. -/
  | revoke (token : String)
  deriving DecidableEq

/-- The tokens after a write. -/
def write (t : Tokens) : Write → Tokens
  | .register token payload => t.register token payload
  | .revoke token => t.revoke token

/-- The tokens have only gained revocations, and they check them as before. -/
structure Grows (t t' : Tokens) : Prop where
  checks : t'.checksRevocation = t.checksRevocation
  revoked : ∀ token ∈ t.revoked, token ∈ t'.revoked

theorem Grows.refl (t : Tokens) : Grows t t := ⟨rfl, fun _ h => h⟩

theorem Grows.trans {t t' t'' : Tokens} (h : Grows t t') (h' : Grows t' t'') : Grows t t'' :=
  ⟨h'.checks.trans h.checks, fun token hmem => h'.revoked token (h.revoked token hmem)⟩

theorem grows_write (t : Tokens) (a : Write) : Grows t (t.write a) := by
  cases a with
  | register token payload => exact ⟨rfl, fun _ h => h⟩
  | revoke token => exact ⟨rfl, fun _ h => NameSet.mem_insert.2 (.inr h)⟩

theorem grows_writes (t : Tokens) (writes : List Write) : Grows t (writes.foldl write t) := by
  induction writes generalizing t with
  | nil => exact .refl t
  | cons a writes ih => exact (grows_write t a).trans (ih (t.write a))

theorem mem_revoked_of_write {t : Tokens} {token : String} {writes : List Write}
    (h : .revoke token ∈ writes) : token ∈ (writes.foldl write t).revoked := by
  induction writes generalizing t with
  | nil => exact absurd h List.not_mem_nil
  | cons a writes ih =>
    rcases List.mem_cons.1 h with rfl | h
    · exact (grows_writes _ writes).revoked token (NameSet.mem_insert.2 (.inl rfl))
    · exact ih h

end Tokens

/-- Collaborators that use the tokens: what they answer, what they write to the tokens and what
becomes of their own state. -/
abbrev TokenUsers (V : Type) :=
  (call : Call) → Tokens × V → call.Reply × List Tokens.Write × V

/-- The collaborators when the tokens in memory decode and everything else is with users of the
tokens. -/
def Tokens.served {V : Type} (users : TokenUsers V) : Collaborators (Tokens × V)
  | .decode token, w => (w.1.decode token, w)
  | call, w => ((users call w).1, ((users call w).2.1.foldl write w.1, (users call w).2.2))

/-- A token whose invalidation succeeds is revoked. -/
def TokenUsers.Revokes {V : Type} (users : TokenUsers V) : Prop :=
  ∀ token w, (users (.invalidate token) w).1 = .ok () →
    .revoke token ∈ (users (.invalidate token) w).2.1

/-- The users of the tokens when a token is invalidated by revoking it and nothing else writes to
the tokens. -/
def TokenUsers.ofBlacklist {V : Type} (others : Collaborators V) : TokenUsers V
  | .invalidate token, w => (.ok (), [.revoke token], w.2)
  | call, w => ((others call w.2).1, [], (others call w.2).2)

theorem TokenUsers.ofBlacklist_revokes {V : Type} (others : Collaborators V) :
    (ofBlacklist others).Revokes :=
  fun _ _ _ => List.mem_singleton.2 rfl

/-- What may happen to a session whose tokens are in memory: it performs an operation, the tokens
are written to, or anything but the tokens changes. -/
inductive Tokens.Permits {V : Type} : Turn (Tokens × V) → Prop where
  | operation (op : Operation) : Permits (.operation op)
  | written (a : Write) : Permits (.change fun w => (w.1.write a, w.2))
  | outside (g : Tokens × V → V) : Permits (.change fun w => (w.1, g w))

namespace Session

section
variable {V : Type} {users : TokenUsers V} {config : AuthConfig} {token : String}
variable {start s : Session (Tokens × V)} {course : List (Turn (Tokens × V))}

/-! ## Revocation is for good -/

theorem grows_call (call : Call) (w : Tokens × V) :
    w.1.Grows (Tokens.served users call w).2.1 := by
  cases call with
  | decode token => exact .refl w.1
  | _ => exact Tokens.grows_writes w.1 _

/-- Throughout an operation the tokens grow. -/
theorem perform_grows (op : Operation) (s : Session (Tokens × V)) :
    s.world.1.Grows (s.perform (Tokens.served users) config op).2.world.1 ∧
      ∀ e ∈ (s.perform (Tokens.served users) config op).2.exchangesSince s,
        ∃ w, s.world.1.Grows w.1 ∧ e.reply = (Tokens.served users e.call w).1 := by
  obtain ⟨hend, hexchanges⟩ := (perform_talks op s).exchanges
    (P := fun w => s.world.1.Grows w.1) (fun call w _ hw => hw.trans (grows_call call w)) (.refl _)
  exact ⟨hend, fun e he => (hexchanges e he).2⟩

theorem take_grows {turn : Turn (Tokens × V)} (hturn : Tokens.Permits turn)
    (s : Session (Tokens × V)) :
    s.world.1.Grows (s.take (Tokens.served users) config turn).world.1 := by
  cases hturn with
  | operation op => exact (perform_grows op s).1
  | written a => exact Tokens.grows_write s.world.1 a
  | outside g => exact .refl s.world.1

/-- The revoked tokens never become fewer. -/
theorem follow_grows (hcourse : ∀ turn ∈ course, Tokens.Permits turn)
    (start : Session (Tokens × V)) :
    start.world.1.Grows (start.follow (Tokens.served users) config course).world.1 :=
  follow_preserves (P := fun s => start.world.1.Grows s.world.1)
    (fun turn hturn s hs => hs.trans (take_grows (hcourse turn hturn) s)) (.refl _)

/-- A revoked token is not decoded in a turn. -/
theorem not_decoded_take {turn : Turn (Tokens × V)} (hcheck : s.world.1.checksRevocation = true)
    (hrevoked : token ∈ s.world.1.revoked) (p : Payload) :
    ⟨.decode token, .ok p⟩ ∉
      (s.take (Tokens.served users) config turn).exchangesSince s := by
  intro he
  obtain ⟨op, rfl⟩ := exists_operation_of_mem he
  obtain ⟨w, hgrows, hreply⟩ := (perform_grows op s).2 _ he
  exact Tokens.notMem_revoked_of_decode (hgrows.checks.trans hcheck) hreply.symm
    (hgrows.revoked token hrevoked)

/-- A revoked token is not decoded in a course, whatever is registered. -/
theorem not_decoded_follow (hcheck : start.world.1.checksRevocation = true)
    (hrevoked : token ∈ start.world.1.revoked) (hcourse : ∀ turn ∈ course, Tokens.Permits turn)
    (p : Payload) :
    ⟨.decode token, .ok p⟩ ∉
      (start.follow (Tokens.served users) config course).exchangesSince start := by
  induction course using List.reverseRecOn with
  | nil => exact exchangesSince_self ▸ List.not_mem_nil
  | append_singleton course turn ih =>
    have hbefore : ∀ x ∈ course, Tokens.Permits x := (List.forall_mem_append.1 hcourse).1
    have hgrows : start.world.1.Grows (start.follow (Tokens.served users) config course).world.1 :=
      follow_grows hbefore start
    rw [exchangesSince_follow_append, follow_concat, List.mem_append]
    rintro (he | he)
    · exact ih hbefore he
    · exact not_decoded_take (hgrows.checks.trans hcheck) (hgrows.revoked token hrevoked) p he

/-- A logout that succeeds has revoked the token that it found, if invalidation revokes. -/
theorem mem_revoked_logout (hrevokes : users.Revokes)
    (hfind : (s.findToken (Tokens.served users)).1 = some token)
    (hok : (s.logout (Tokens.served users)).1 = .ok ()) :
    token ∈ (s.logout (Tokens.served users)).2.world.1.revoked := by
  have hinvalidated : ((s.findToken (Tokens.served users)).2.ask (Tokens.served users)
      (.invalidate token)).1 = .ok () := by
    rw [← invalidateToken_of_find hfind]
    exact invalidateToken_of_logout hok
  rw [snd_logout, invalidateToken_of_find hfind]
  refine (grows_call .logout _).revoked token ?_
  exact Tokens.mem_revoked_of_write (hrevokes token _ hinvalidated)

/-! ## What is left of a revoked token -/

/-- The token was decoded in the first part of the course, before it was revoked, and the payload
was kept from then to the end of the second part. -/
def KeptDecoded (peers : Collaborators (Tokens × V)) (config : AuthConfig)
    (start : Session (Tokens × V)) (token : String) (before later : List (Turn (Tokens × V))) :
    Prop :=
  ∃ early turn mid p, before = early ++ turn :: mid ∧
    token ∉ (start.follow peers config early).world.1.revoked ∧
    ⟨.decode token, .ok p⟩ ∈ (start.follow peers config (early ++ [turn])).exchangesSince
      (start.follow peers config early) ∧
    ∀ x ∈ mid ++ later, x.KeepsPayload

section
variable {before later : List (Turn (Tokens × V))} {op : Operation}
variable {answer : Option Payload → Answer}

/-- The turn in which a revoked token was decoded came before the revocation. -/
theorem keptDecoded_of_holdsFrom {p : Payload} (hcheck : start.world.1.checksRevocation = true)
    (hcourse : ∀ turn ∈ before ++ later, Tokens.Permits turn)
    (hrevoked : token ∈ (start.follow (Tokens.served users) config before).world.1.revoked)
    (h : HoldsFrom (Tokens.served users) config start (.decoded token) p
      (before ++ later ++ [.operation op])) :
    KeptDecoded (Tokens.served users) config start token before later := by
  obtain ⟨early, turn, late, hcut, hdecoded, hlate⟩ := h.exists_turn
  have hpermits : ∀ x ∈ before ++ later ++ [.operation op], Tokens.Permits x :=
    List.forall_mem_append.2 ⟨hcourse, List.forall_mem_singleton.2 (.operation op)⟩
  have hgrows : start.world.1.Grows
      (start.follow (Tokens.served users) config early).world.1 := by
    refine follow_grows (fun x hx => hpermits x ?_) start
    rw [hcut]
    exact List.mem_append_left _ hx
  have hunrevoked : token ∉ (start.follow (Tokens.served users) config early).world.1.revoked :=
    fun hmem => not_decoded_take (hgrows.checks.trans hcheck) hmem p hdecoded
  rw [List.append_assoc] at hcut
  rcases List.append_eq_append_iff.1 hcut with ⟨rest, rfl, hrest⟩ | ⟨rest, hbefore, hrest⟩
  · -- The token would have been revoked when it was decoded.
    refine absurd ?_ hunrevoked
    rw [follow_append]
    refine (follow_grows (fun x hx => hpermits x ?_) _).revoked token hrevoked
    rw [List.append_assoc, hrest]
    simp [hx]
  · cases rest with
    | nil =>
      rw [List.append_nil] at hbefore
      exact absurd (hbefore ▸ hrevoked) hunrevoked
    | cons first mid =>
      rw [List.cons_append] at hrest
      obtain ⟨rfl, rfl⟩ := List.cons.inj hrest
      rw [← follow_concat] at hdecoded
      refine ⟨early, turn, mid, p, hbefore, hunrevoked, hdecoded, fun x hx => hlate x ?_⟩
      rw [← List.append_assoc]
      exact List.mem_append_left _ hx

/-- What is left of a revoked token: an operation that asks for the payload is answered from it
exactly if it was decoded before its revocation and the payload was kept. -/
theorem answeredFrom_iff_keptDecoded (hcheck : start.world.1.checksRevocation = true)
    (hcourse : ∀ turn ∈ before ++ later, Tokens.Permits turn)
    (hrevoked : token ∈ (start.follow (Tokens.served users) config before).world.1.revoked)
    (hop : op.answerTo? config = some answer) :
    AnsweredFrom (Tokens.served users) config start (.decoded token) (before ++ later) op ↔
      KeptDecoded (Tokens.served users) config start token before later := by
  constructor
  · rintro ⟨-, p, -, -, hholds⟩
    exact keptDecoded_of_holdsFrom hcheck hcourse hrevoked hholds
  · rintro ⟨early, turn, mid, p, rfl, -, hdecoded, hkeeps⟩
    refine HoldsFrom.answeredFrom (p := p) (holdsFrom_iff.2
      ⟨early, turn, mid ++ later ++ [.operation op], by simp, ?_, ?_⟩) hop
    · rw [← follow_concat]
      exact hdecoded
    · exact List.forall_mem_append.2
        ⟨hkeeps, List.forall_mem_singleton.2 (Operation.keepsPayload_of_answerTo? hop)⟩

/-- A logout keeps no payload. -/
theorem not_keptDecoded_logout :
    ¬ KeptDecoded (Tokens.served users) config start token (before ++ [.operation .logout])
      later := by
  rintro ⟨early, turn, mid, p, hcut, -, hdecoded, hkeeps⟩
  rcases List.eq_nil_or_concat mid with rfl | ⟨mid, last, rfl⟩
  · obtain ⟨rfl, hturn⟩ := List.append_inj' hcut rfl
    cases hturn
    rw [follow_concat] at hdecoded
    exact id (exchange_of_mem hdecoded).1
  · rw [List.concat_eq_append, ← List.cons_append, ← List.append_assoc] at hcut
    obtain ⟨-, hturn⟩ := List.append_inj' hcut rfl
    cases hturn
    exact (hkeeps (.operation .logout) (by simp)).2 rfl

end

/-- **A revoked token is never accepted again.** Let tokens in memory that check revocations decode
for a session, whatever else uses and writes to them. Along every course the revoked tokens only
become more, and once a token is revoked it is not decoded again, also if it is registered again.
From then on the answer to an operation that only asks for the payload comes from that token exactly
if it was decoded before and the payload was kept since. After a logout that found the token and
succeeded, where invalidation revokes, no answer comes from it. -/
theorem revoked_never_accepted {tokens : Tokens} {v : V}
    (hcheck : tokens.checksRevocation = true)
    {before later : List (Turn (Tokens × V))}
    (hcourse : ∀ turn ∈ before ++ later, Tokens.Permits turn) :
    let peers := Tokens.served users
    let start : Session (Tokens × V) := .ofConfig config (tokens, v)
    let reached := start.follow peers config before
    let s := start.follow peers config (before ++ later)
    (∀ token ∈ reached.world.1.revoked, token ∈ s.world.1.revoked ∧
        (∀ p, ⟨.decode token, .ok p⟩ ∉ s.exchangesSince reached) ∧
        ∀ op answer, op.answerTo? config = some answer →
          (AnsweredFrom peers config start (.decoded token) (before ++ later) op ↔
            KeptDecoded peers config start token before later)) ∧
      (users.Revokes → (reached.logout peers).1 = .ok () →
        ∀ token, (reached.findToken peers).1 = some token →
          token ∈ (reached.logout peers).2.world.1.revoked ∧
          ∀ op, ¬ AnsweredFrom peers config start (.decoded token)
            (before ++ [.operation .logout] ++ later) op) := by
  intro peers start reached s
  obtain ⟨hbefore, hlater⟩ := List.forall_mem_append.1 hcourse
  have hs : s = reached.follow peers config later := follow_append before later
  have hreached : reached.world.1.checksRevocation = true :=
    (follow_grows hbefore start).checks.trans hcheck
  refine ⟨fun token hrevoked => ⟨?_, fun p => ?_, fun op answer hop => ?_⟩,
    fun hrevokes hok token hfind => ?_⟩
  · rw [hs]
    exact (follow_grows hlater reached).revoked token hrevoked
  · rw [hs]
    exact not_decoded_follow hreached hrevoked hlater p
  · exact answeredFrom_iff_keptDecoded hcheck hcourse hrevoked hop
  · have hrevoked : token ∈ (reached.logout peers).2.world.1.revoked :=
      mem_revoked_logout hrevokes hfind hok
    refine ⟨hrevoked, fun op hanswered => ?_⟩
    have hended : ∀ turn ∈ before ++ [.operation .logout] ++ later, Tokens.Permits turn :=
      List.forall_mem_append.2 ⟨List.forall_mem_append.2
        ⟨hbefore, List.forall_mem_singleton.2 (.operation .logout)⟩, hlater⟩
    obtain ⟨answer, p, hop, -, hholds⟩ := hanswered
    refine not_keptDecoded_logout (keptDecoded_of_holdsFrom hcheck hended ?_ hholds)
    rw [follow_concat]
    exact hrevoked

/-- A payload that was decoded is answered after its token was revoked and registered again, but not
after a logout. -/
theorem decoded_token_kept_until_logout :
    AnsweredFrom (Tokens.served (.ofBlacklist Memory.peers)) .standard
        (.ofConfig .standard (Tokens.register default "t" ⟨[]⟩,
          .ofRequest ⟨[⟨"authorization", "t"⟩], []⟩ true)) (.decoded "t")
        ([.operation .auth, .change fun w => (w.1.write (.revoke "t"), w.2)] ++
          [.change fun w => (w.1.write (.register "t" ⟨[]⟩), w.2)]) .auth ∧
      ¬ AnsweredFrom (Tokens.served (.ofBlacklist Memory.peers)) .standard
        (.ofConfig .standard (Tokens.register default "t" ⟨[]⟩,
          .ofRequest ⟨[⟨"authorization", "t"⟩], []⟩ true)) (.decoded "t")
        ([.operation .auth] ++ [.operation .logout] ++
          [.change fun w => (w.1.write (.register "t" ⟨[]⟩), w.2)]) .auth := by
  constructor
  · refine (((revoked_never_accepted rfl ?_).1 "t" ?_).2.2 .auth .payload rfl).2 ?_
    · intro turn hturn
      simp only [List.mem_append, List.mem_cons, List.not_mem_nil, or_false] at hturn
      rcases hturn with (rfl | rfl) | rfl
      · exact .operation .auth
      · exact .written (.revoke "t")
      · exact .written (.register "t" ⟨[]⟩)
    · decide +kernel
    · refine ⟨[], .operation .auth, _, ⟨[]⟩, rfl, by decide +kernel, by decide +kernel, ?_⟩
      intro x hx
      simp only [List.mem_append, List.mem_cons, List.not_mem_nil, or_false] at hx
      rcases hx with rfl | rfl <;> trivial
  · refine ((revoked_never_accepted rfl ?_).2 (TokenUsers.ofBlacklist_revokes Memory.peers) ?_
      "t" ?_).2 .auth
    · intro turn hturn
      simp only [List.mem_append, List.mem_cons, List.not_mem_nil, or_false] at hturn
      rcases hturn with rfl | rfl
      · exact .operation .auth
      · exact .written (.register "t" ⟨[]⟩)
    · decide +kernel
    · decide +kernel

end

end Session

end Clearance
