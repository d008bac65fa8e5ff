import Clearance.Proofs.Session.Blacklist
import Mathlib.Data.Finset.Card

/-!
# Tokens by their history

Tokens in memory are written to and asked about in any order (`Tokens.Step`). What they answer about
a token is a function of what was done before: a token is revoked if it was revoked once
(`mem_revoked_run`), and its payload is the one it was registered with last
(`lookup_run_eq_some_iff`). Steps on other tokens can be left out (`agreeOn_run_filter`).
`answers_by_history` says what each question is answered with.
-/

namespace Clearance

/-- The size of a set is the number of distinct names in a list with the same members. -/
theorem NameSet.size_eq_card {s : NameSet} {names : List String}
    (same : ∀ name, name ∈ s ↔ name ∈ names) : s.size = names.toFinset.card := by
  have hnodup : s.toList.Nodup := by
    refine s.increasing.imp fun {a b} hlt heq => ?_
    subst heq
    exact String.lt_irrefl _ hlt
  have hnames : s.toList.toFinset = names.toFinset := by
    ext name
    rw [List.mem_toFinset, List.mem_toFinset, ← NameSet.mem_def, same]
  rw [NameSet.size, ← List.toFinset_card_of_nodup hnodup, hnames]

namespace Tokens

/-! ## Steps -/

/-- What is done with the tokens. -/
inductive Step where
  /-- A token is registered or revoked. -/
  | write (a : Write)
  /-- It is asked whether a token is revoked. -/
  | contains (token : String)
  /-- A token is decoded. -/
  | decode (token : String)
  deriving DecidableEq

/-- The token that a step is about. -/
def Step.token : Step → String
  | write (.register token _) => token
  | write (.revoke token) => token
  | contains token => token
  | decode token => token

/-- The tokens after a step. Questions leave them as they are. -/
def step (t : Tokens) : Step → Tokens
  | .write a => t.write a
  | .contains _ => t
  | .decode _ => t

/-- The tokens after a history of steps. -/
def run (t : Tokens) (history : List Step) : Tokens := history.foldl step t

/-- The token that a step revokes. -/
def Step.revoked? : Step → Option String
  | write (.revoke token) => some token
  | _ => none

/-- The tokens that were revoked, each as often as it was. -/
def revocations (history : List Step) : List String := history.filterMap Step.revoked?

/-- The token was registered with the payload, and not again after that. -/
def RegisteredLast (token : String) (payload : Payload) (history : List Step) : Prop :=
  ∃ earlier later, history = earlier ++ .write (.register token payload) :: later ∧
    ∀ other, .write (.register token other) ∉ later

section
variable {t t' : Tokens} {token : String} {history : List Step}

/-! ## What a step leaves -/

theorem checksRevocation_step (t : Tokens) (s : Step) :
    (t.step s).checksRevocation = t.checksRevocation := by
  cases s with
  | write a => exact (grows_write t a).checks
  | contains other => rfl
  | decode other => rfl

theorem mem_revoked_step (t : Tokens) (s : Step) :
    token ∈ (t.step s).revoked ↔ s = .write (.revoke token) ∨ token ∈ t.revoked := by
  cases s with
  | write a =>
    cases a with
    | register other payload => simp [step, write, register]
    | revoke other => simp [step, write, revoke, eq_comm]
  | contains other => simp [step]
  | decode other => simp [step]

theorem lookup_register (t : Tokens) (token : String) (payload : Payload) :
    (t.step (.write (.register token payload))).registered.lookup token = some payload :=
  List.lookup_cons_self

/-- A step that does not register the token leaves its payload. -/
theorem lookup_step {s : Step} (hs : ∀ payload, s ≠ .write (.register token payload)) :
    (t.step s).registered.lookup token = t.registered.lookup token := by
  cases s with
  | write a =>
    cases a with
    | register other payload =>
      have hne : (token == other) = false := beq_eq_false_iff_ne.2 fun e => hs payload (e ▸ rfl)
      rw [step, write, register, List.lookup_cons, hne]
    | revoke other => rfl
  | contains other => rfl
  | decode other => rfl

/-! ## What a history leaves -/

theorem run_concat (t : Tokens) (history : List Step) (s : Step) :
    t.run (history ++ [s]) = (t.run history).step s := by
  rw [run, List.foldl_append]
  rfl

theorem checksRevocation_run (t : Tokens) (history : List Step) :
    (t.run history).checksRevocation = t.checksRevocation := by
  induction history using List.reverseRecOn with
  | nil => rfl
  | append_singleton history s ih => rw [run_concat, checksRevocation_step, ih]

/-- A token is revoked if it was revoked once. -/
theorem mem_revoked_run (t : Tokens) (history : List Step) :
    token ∈ (t.run history).revoked ↔
      .write (.revoke token) ∈ history ∨ token ∈ t.revoked := by
  induction history using List.reverseRecOn with
  | nil => simp [run]
  | append_singleton history s ih =>
    rw [run_concat, mem_revoked_step, ih, List.mem_append, List.mem_singleton, ← or_assoc,
      or_comm (a := s = _), eq_comm]

theorem Step.revoked?_eq_some_iff {s : Step} :
    s.revoked? = some token ↔ s = .write (.revoke token) := by
  cases s with
  | write a => cases a <;> simp [revoked?]
  | contains other => simp [revoked?]
  | decode other => simp [revoked?]

theorem mem_revocations_iff :
    token ∈ revocations history ↔ .write (.revoke token) ∈ history := by
  simp [revocations, Step.revoked?_eq_some_iff]

/-- The last registration in a longer history is the last step, or one before it that the last step
does not replace. -/
theorem registeredLast_concat_iff {payload : Payload} {s : Step} :
    RegisteredLast token payload (history ++ [s]) ↔
      s = .write (.register token payload) ∨
        (∀ other, s ≠ .write (.register token other)) ∧ RegisteredLast token payload history := by
  constructor
  · rintro ⟨earlier, later, hcut, hlater⟩
    rcases List.eq_nil_or_concat later with rfl | ⟨later, last, rfl⟩
    · exact .inl (List.singleton_inj.1 (List.append_inj' hcut rfl).2)
    · rw [List.concat_eq_append] at hcut hlater
      rw [← List.cons_append, ← List.append_assoc] at hcut
      obtain ⟨rfl, hlast⟩ := List.append_inj' hcut rfl
      obtain rfl := List.singleton_inj.1 hlast
      refine .inr ⟨fun other e => hlater other ?_, earlier, later, rfl, fun other hmem => ?_⟩
      · exact List.mem_append_right _ (List.mem_singleton.2 e.symm)
      · exact hlater other (List.mem_append_left _ hmem)
  · rintro (rfl | ⟨hs, earlier, later, rfl, hlater⟩)
    · exact ⟨history, [], rfl, fun _ => List.not_mem_nil⟩
    · refine ⟨earlier, later ++ [s], by simp, fun other hmem => ?_⟩
      rcases List.mem_append.1 hmem with hmem | hmem
      · exact hlater other hmem
      · exact hs other (List.mem_singleton.1 hmem).symm

theorem not_registeredLast_nil {payload : Payload} : ¬ RegisteredLast token payload [] := by
  rintro ⟨earlier, later, hcut, -⟩
  exact List.append_ne_nil_of_right_ne_nil earlier (List.cons_ne_nil _ later) hcut.symm

/-- The payload of a token is the one it was registered with last. -/
theorem lookup_run_eq_some_iff {payload : Payload} (hstart : t.registered.lookup token = none) :
    (t.run history).registered.lookup token = some payload ↔
      RegisteredLast token payload history := by
  induction history using List.reverseRecOn with
  | nil =>
    rw [run, List.foldl_nil, hstart]
    exact iff_of_false nofun not_registeredLast_nil
  | append_singleton history s ih =>
    rw [run_concat, registeredLast_concat_iff]
    by_cases hs : ∃ other, s = .write (.register token other)
    · obtain ⟨other, rfl⟩ := hs
      rw [lookup_register]
      simp
    · rw [not_exists] at hs
      rw [lookup_step hs, ih]
      exact ⟨fun h => .inr ⟨hs, h⟩, fun h => (h.resolve_left (hs payload)).2⟩

/-- A token without payload was never registered. -/
theorem lookup_run_eq_none_iff (hstart : t.registered.lookup token = none) :
    (t.run history).registered.lookup token = none ↔
      ∀ payload, .write (.register token payload) ∉ history := by
  induction history using List.reverseRecOn with
  | nil => simpa [run] using hstart
  | append_singleton history s ih =>
    rw [run_concat]
    by_cases hs : ∃ other, s = .write (.register token other)
    · obtain ⟨other, rfl⟩ := hs
      rw [lookup_register]
      exact iff_of_false nofun fun h => h other (by simp)
    · rw [not_exists] at hs
      rw [lookup_step hs, ih]
      refine forall_congr' fun payload => not_congr ?_
      rw [List.mem_append, List.mem_singleton, or_iff_left fun e => hs payload e.symm]

/-! ## One token among others -/

/-- The tokens agree on all that counts for one token. -/
structure AgreeOn (token : String) (t t' : Tokens) : Prop where
  checks : t.checksRevocation = t'.checksRevocation
  revoked : token ∈ t.revoked ↔ token ∈ t'.revoked
  registered : t.registered.lookup token = t'.registered.lookup token

theorem AgreeOn.trans {t'' : Tokens} (agree : AgreeOn token t t') (agree' : AgreeOn token t' t'') :
    AgreeOn token t t'' :=
  ⟨agree.checks.trans agree'.checks, agree.revoked.trans agree'.revoked,
    agree.registered.trans agree'.registered⟩

theorem AgreeOn.decode_eq (agree : AgreeOn token t t') : t.decode token = t'.decode token := by
  simp only [decode, agree.checks, agree.revoked, agree.registered]

/-- The same step on both sides keeps the agreement. -/
theorem AgreeOn.step (agree : AgreeOn token t t') (s : Step) :
    AgreeOn token (t.step s) (t'.step s) where
  checks := by rw [checksRevocation_step, checksRevocation_step, agree.checks]
  revoked := by rw [mem_revoked_step, mem_revoked_step, agree.revoked]
  registered := by
    by_cases hs : ∃ payload, s = .write (.register token payload)
    · obtain ⟨payload, rfl⟩ := hs
      rw [lookup_register, lookup_register]
    · rw [lookup_step (not_exists.1 hs), lookup_step (not_exists.1 hs), agree.registered]

/-- A step on another token changes nothing that counts. -/
theorem agreeOn_step_of_ne {s : Step} (hs : s.token ≠ token) : AgreeOn token t (t.step s) where
  checks := (checksRevocation_step t s).symm
  revoked := by
    have hne : s ≠ .write (.revoke token) := fun e => hs (e ▸ rfl)
    rw [mem_revoked_step, or_iff_right hne]
  registered := (lookup_step fun payload e => hs (by rw [e]; rfl)).symm

/-- Steps on other tokens can be left out of a history. -/
theorem agreeOn_run_filter (t : Tokens) (token : String) (history : List Step) :
    AgreeOn token (t.run (history.filter (·.token = token))) (t.run history) := by
  induction history using List.reverseRecOn with
  | nil => exact ⟨rfl, Iff.rfl, rfl⟩
  | append_singleton history s ih =>
    rw [List.filter_append, run_concat]
    by_cases hs : s.token = token
    · rw [List.filter_cons_of_pos (by simpa using hs), List.filter_nil, run_concat]
      exact ih.step s
    · rw [List.filter_cons_of_neg (by simpa using hs), List.filter_nil, List.append_nil]
      exact ih.trans (agreeOn_step_of_ne hs)

/-! ## Answers -/

theorem decode_of_revoked (h : t.checksRevocation = true ∧ token ∈ t.revoked) :
    t.decode token = .error .revoked :=
  if_pos h

theorem decode_of_not_revoked (h : ¬ (t.checksRevocation = true ∧ token ∈ t.revoked)) :
    t.decode token =
      (t.registered.lookup token).elim (.error (.malformed "unknown token")) .ok := by
  rw [decode, if_neg h]
  cases t.registered.lookup token <;> rfl

theorem decode_eq_revoked_iff :
    t.decode token = .error .revoked ↔ t.checksRevocation = true ∧ token ∈ t.revoked := by
  refine ⟨fun hanswer => ?_, decode_of_revoked⟩
  by_contra h
  rw [decode_of_not_revoked h] at hanswer
  cases hlookup : t.registered.lookup token with
  | none => simp [hlookup] at hanswer
  | some payload => simp [hlookup] at hanswer

/-- Any other answer is the one that the registered payloads give. -/
theorem decode_eq_iff_of_ne {answer : Except DecodeFault Payload}
    (hne : answer ≠ .error .revoked) :
    t.decode token = answer ↔ ¬ (t.checksRevocation = true ∧ token ∈ t.revoked) ∧
      (t.registered.lookup token).elim (.error (.malformed "unknown token")) .ok = answer := by
  by_cases h : t.checksRevocation = true ∧ token ∈ t.revoked
  · rw [decode_of_revoked h]
    exact iff_of_false hne.symm fun hnot => hnot.1 h
  · rw [decode_of_not_revoked h, and_iff_right h]

theorem decode_eq_ok_iff {payload : Payload} :
    t.decode token = .ok payload ↔
      ¬ (t.checksRevocation = true ∧ token ∈ t.revoked) ∧
        t.registered.lookup token = some payload := by
  rw [decode_eq_iff_of_ne (by simp)]
  cases t.registered.lookup token <;> simp

theorem decode_eq_unknown_iff :
    t.decode token = .error (.malformed "unknown token") ↔
      ¬ (t.checksRevocation = true ∧ token ∈ t.revoked) ∧ t.registered.lookup token = none := by
  rw [decode_eq_iff_of_ne (by simp)]
  cases t.registered.lookup token <;> simp

end

/-- **Tokens answer by their history.** After any history of steps from no token at all, exactly the
tokens that were revoked once are revoked, and there are as many as distinct tokens were revoked. If
revocations are checked, such a token does not decode as it is revoked, whether and whenever it was
registered. Any other token, and any token if revocations are not checked, decodes to the payload
that it was registered with last, and is unknown if it never was registered. The steps on other
tokens do not count. -/
theorem answers_by_history (checks : Bool) (history : List Step) :
    let t := (empty checks).run history
    t.revoked.size = (revocations history).toFinset.card ∧
      (t.revoked.isEmpty = true ↔ (revocations history).toFinset.card = 0) ∧
      ∀ token,
        (token ∈ t.revoked ↔ .write (.revoke token) ∈ history) ∧
        (t.decode token = .error .revoked ↔
          checks = true ∧ .write (.revoke token) ∈ history) ∧
        (∀ payload, t.decode token = .ok payload ↔
          ¬ (checks = true ∧ .write (.revoke token) ∈ history) ∧
            RegisteredLast token payload history) ∧
        (t.decode token = .error (.malformed "unknown token") ↔
          ¬ (checks = true ∧ .write (.revoke token) ∈ history) ∧
            ∀ payload, .write (.register token payload) ∉ history) ∧
        (token ∈ ((empty checks).run (history.filter (·.token = token))).revoked ↔
          token ∈ t.revoked) ∧
        ((empty checks).run (history.filter (·.token = token))).decode token = t.decode token := by
  intro t
  have hchecks : t.checksRevocation = checks := checksRevocation_run (empty checks) history
  have hrevoked : ∀ token, token ∈ t.revoked ↔ .write (.revoke token) ∈ history := by
    intro token
    rw [mem_revoked_run]
    exact or_iff_left (NameSet.notMem_empty token)
  have hsize : t.revoked.size = (revocations history).toFinset.card :=
    NameSet.size_eq_card fun token => (hrevoked token).trans mem_revocations_iff.symm
  refine ⟨hsize, hsize ▸ NameSet.isEmpty_iff, fun token => ?_⟩
  have hagree := agreeOn_run_filter (empty checks) token history
  refine ⟨hrevoked token, ?_, fun payload => ?_, ?_, hagree.revoked, hagree.decode_eq⟩
  · rw [decode_eq_revoked_iff, hchecks, hrevoked]
  · rw [decode_eq_ok_iff, hchecks, hrevoked, lookup_run_eq_some_iff rfl]
  · rw [decode_eq_unknown_iff, hchecks, hrevoked, lookup_run_eq_none_iff rfl]

end Tokens

end Clearance
