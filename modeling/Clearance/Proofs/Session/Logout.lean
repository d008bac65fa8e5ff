import Clearance.Proofs.Session.Step

/-!
# Logout

A logout tries to invalidate the token that is found, forgets what was resolved, and tears the
session down, in this order and whatever fails. `exchangesSince_invalidateToken` and
`exchangesSince_logout` list the calls it makes, `fst_logout_eq_ok_iff` and `fst_logout_eq_error_iff`
say what it answers: the fault of the invalidation, or else that of the teardown. `logout_completes`
puts them together for every state and any collaborators.
-/

namespace Clearance.Session

variable {W : Type} {peers : Collaborators W} {config : AuthConfig} {s : Session W}

/-! ## The attempt to invalidate -/

/-- Without a token there is nothing to invalidate. -/
theorem invalidateToken_of_absent (hfind : (s.findToken peers).1 = none) :
    s.invalidateToken peers = (.ok (), (s.findToken peers).2) := by
  unfold invalidateToken
  rcases hr : s.findToken peers with ⟨r, t⟩
  rw [hr] at hfind
  cases hfind
  rfl

/-- The token is looked for, and if it is found its invalidation is asked for once. -/
theorem exchangesSince_invalidateToken (s : Session W) :
    (s.invalidateToken peers).2.exchangesSince s =
      ⟨.find (candidates s.guardPrefix), (s.findToken peers).1⟩ ::
        (s.findToken peers).1.toList.map fun token =>
          ⟨.invalidate token, (s.invalidateToken peers).1⟩ := by
  have hsearch : (s.findToken peers).2.exchangesSince s =
      [⟨.find (candidates s.guardPrefix), (s.findToken peers).1⟩] := exchangesSince_ask _
  cases hfind : (s.findToken peers).1 with
  | none =>
    rw [invalidateToken_of_absent hfind, hsearch, hfind]
    rfl
  | some token =>
    have hsearched : s.journal <+: (s.findToken peers).2.journal := List.prefix_append _ _
    have hasked : (s.findToken peers).2.journal <+:
        ((s.findToken peers).2.ask peers (.invalidate token)).2.journal := List.prefix_append _ _
    rw [invalidateToken_of_find hfind, exchangesSince_trans hsearched hasked, hsearch,
      exchangesSince_ask, hfind]
    rfl

/-! ## The whole logout -/

/-- The teardown is asked for last, of a session that has forgotten everything. -/
theorem exchangesSince_logout (s : Session W) :
    (s.logout peers).2.exchangesSince s =
      (s.invalidateToken peers).2.exchangesSince s ++
        [⟨.logout, ((s.invalidateToken peers).2.forget.ask peers .logout).1⟩] := by
  have hattempted : s.journal <+: (s.invalidateToken peers).2.forget.journal :=
    (invalidateToken_talks s).journal_extends
  rw [snd_logout, exchangesSince_trans hattempted (List.prefix_append _ _), exchangesSince_ask]
  rfl

/-- A logout succeeds if neither the invalidation nor the teardown fails. -/
theorem fst_logout_eq_ok_iff :
    (s.logout peers).1 = .ok () ↔ (s.invalidateToken peers).1 = .ok () ∧
      ((s.invalidateToken peers).2.forget.ask peers .logout).1 = .ok () := by
  unfold logout
  rcases s.invalidateToken peers with ⟨fault | _, t⟩
  · exact ⟨nofun, nofun⟩
  · exact (and_iff_right rfl).symm

/-- A logout fails as the invalidation does, or as the teardown does if the invalidation does not
fail. -/
theorem fst_logout_eq_error_iff {fault : Fault} :
    (s.logout peers).1 = .error fault ↔ (s.invalidateToken peers).1 = .error fault ∨
      (s.invalidateToken peers).1 = .ok () ∧
        ((s.invalidateToken peers).2.forget.ask peers .logout).1 = .error fault := by
  unfold logout
  rcases s.invalidateToken peers with ⟨first | _, t⟩
  · exact ⟨.inl, fun h => h.resolve_right nofun⟩
  · exact ⟨fun h => .inr ⟨rfl, h⟩, fun h => (h.resolve_left nofun).2⟩

/-- **A logout completes.** In every state and whatever the collaborators answer, a logout makes
these calls and no others: the search for the token, which finds what the token of the request is at
that moment; its invalidation if there is one; and the teardown, of a session that by then has
forgotten its payload and its principal. Both stay forgotten, and the guard stays. The answer is the
fault of the invalidation, that of the teardown if only this one failed, and success if neither
did. -/
theorem logout_completes (peers : Collaborators W) (config : AuthConfig) (s : Session W) :
    let searched := s.perform peers config .getToken
    let ended := s.perform peers config .logout
    ∃ (found : Option String) (invalidation teardown : Except Fault Unit) (attempted : Session W),
      searched.1 = .token found ∧
      (found = none → (invalidation, attempted) = (.ok (), searched.2)) ∧
      (∀ token, found = some token →
        searched.2.ask peers (.invalidate token) = (invalidation, attempted)) ∧
      attempted.forget.ask peers .logout = (teardown, ended.2) ∧
      ended.2.exchangesSince s =
        ⟨.find (candidates s.guardPrefix), found⟩ ::
          found.toList.map (fun token => ⟨.invalidate token, invalidation⟩) ++
          [⟨.logout, teardown⟩] ∧
      ended.2.payload = none ∧ ended.2.principal = none ∧
      ended.2.guardPrefix = s.guardPrefix ∧
      (ended.1 = .outcome (.ok ()) ↔ invalidation = .ok () ∧ teardown = .ok ()) ∧
      ∀ fault, ended.1 = .outcome (.error fault) ↔
        invalidation = .error fault ∨ invalidation = .ok () ∧ teardown = .error fault := by
  intro searched ended
  have hanswer : ∀ result, ended.1 = .outcome result ↔ (s.logout peers).1 = result :=
    fun _ => ⟨Answer.outcome.inj, congrArg Answer.outcome⟩
  refine ⟨(s.findToken peers).1, (s.invalidateToken peers).1,
    ((s.invalidateToken peers).2.forget.ask peers .logout).1, (s.invalidateToken peers).2, rfl,
    invalidateToken_of_absent, fun token hfind => (invalidateToken_of_find hfind).symm, ?_, ?_,
    payload_logout, principal_logout, guardPrefix_logout, ?_, fun fault => ?_⟩
  · exact Prod.ext rfl snd_logout.symm
  · rw [← exchangesSince_invalidateToken]
    exact exchangesSince_logout s
  · exact (hanswer _).trans fst_logout_eq_ok_iff
  · exact (hanswer _).trans fst_logout_eq_error_iff

end Clearance.Session
