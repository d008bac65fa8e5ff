import Clearance.Proofs.Request.Sources
import Clearance.Session.Basic
import Mathlib.Data.List.Infix

/-!
# Guards

A guard is written in front of the three names of the token. Two names under different guards can be
the same text in one way only: since `access_token` ends with `token`, the guard `g` followed by
`access_` has under `token` the name that `g` has under `access_token`
(`guard_eq_or_of_append_eq`). Names of headers are compared in lower case, and so guards that are
related in no such way, whatever the case of their letters, have all their places apart, and what a
request holds for one guard is not seen under the other (`guards_isolated`).
-/

namespace Clearance

/-! ## Names of tokens under guards -/

theorem toLower_of_mem_tokenNames : ∀ name ∈ tokenNames, name.toLower = name := by
  decide +kernel

theorem nodup_tokenNames : tokenNames.Nodup := by
  decide

/-- A token name that ends with another is the other behind `access_`. -/
theorem eq_or_of_suffix_of_mem_tokenNames : ∀ a ∈ tokenNames, ∀ b ∈ tokenNames,
    a.toList <:+ b.toList → b = a ∨ b = "access_" ++ a := by
  decide +kernel

section
variable {g h : String}

/-- Guards that lead to one name are the same, or one of them is the other followed by `access_`. -/
theorem guard_eq_or_of_append_eq {a b : String} (ha : a ∈ tokenNames) (hb : b ∈ tokenNames)
    (heq : g ++ a = h ++ b) : g = h ∨ g = h ++ "access_" ∨ h = g ++ "access_" := by
  have ha' : a.toList <:+ (g ++ a).toList := ⟨g.toList, String.toList_append.symm⟩
  have hb' : b.toList <:+ (g ++ a).toList := ⟨h.toList, by rw [heq, String.toList_append]⟩
  rcases List.suffix_or_suffix_of_suffix ha' hb' with hab | hba
  · rcases eq_or_of_suffix_of_mem_tokenNames a ha b hb hab with rfl | rfl
    · exact .inl ((String.append_left_inj _).1 heq)
    · rw [← String.append_assoc, String.append_left_inj] at heq
      exact .inr (.inl heq)
  · rcases eq_or_of_suffix_of_mem_tokenNames b hb a ha hba with rfl | rfl
    · exact .inl ((String.append_left_inj _).1 heq)
    · rw [← String.append_assoc, String.append_left_inj] at heq
      exact .inr (.inr heq.symm)

theorem mem_candidates_iff {name : String} :
    name ∈ candidates g ↔ ∃ a ∈ tokenNames, g ++ a = name :=
  List.mem_map

/-- In lower case the guard is followed by the same token name. -/
theorem toLower_candidate {a : String} (ha : a ∈ tokenNames) :
    (g ++ a).toLower = g.toLower ++ a := by
  rw [Text.toLower_append, toLower_of_mem_tokenNames a ha]

/-- The names under one guard differ in more than the case of letters. -/
theorem pairwise_candidates (g : String) :
    (candidates g).Pairwise fun m n => m.toLower ≠ n.toLower := by
  refine List.pairwise_map.2 (nodup_tokenNames.imp_of_mem fun {a b} ha hb hne heq => hne ?_)
  rw [toLower_candidate ha, toLower_candidate hb] at heq
  exact (String.append_right_inj _).1 heq

/-- So do the names under two guards that are not related. -/
theorem toLower_ne_of_mem_candidates (hne : g.toLower ≠ h.toLower)
    (hgh : g.toLower ≠ h.toLower ++ "access_") (hhg : h.toLower ≠ g.toLower ++ "access_")
    {m n : String} (hm : m ∈ candidates g) (hn : n ∈ candidates h) : m.toLower ≠ n.toLower := by
  obtain ⟨a, ha, rfl⟩ := mem_candidates_iff.1 hm
  obtain ⟨b, hb, rfl⟩ := mem_candidates_iff.1 hn
  rw [toLower_candidate ha, toLower_candidate hb]
  intro heq
  rcases guard_eq_or_of_append_eq ha hb heq with hsame | hlonger | hshorter
  · exact hne hsame
  · exact hgh hlonger
  · exact hhg hshorter

/-! ## The name that two guards share -/

theorem access_token_mem_candidates (g : String) : g ++ "access_token" ∈ candidates g :=
  mem_candidates_iff.2 ⟨"access_token", by decide, rfl⟩

theorem access_token_mem_candidates_access (g : String) :
    g ++ "access_token" ∈ candidates (g ++ "access_") :=
  mem_candidates_iff.2 ⟨"token", by decide, by rw [String.append_assoc]; rfl⟩

end

namespace Request

variable {r r' : Request} {names : List String} {token : String}

/-- A token that stands at one place only is found under all names that it is looked up with. -/
theorem token?_of_only_parameter {name : String} (hname : name ∈ names)
    (hsome : r.tokenAt? (.parameter name) = some token)
    (honly : ∀ source, source ≠ .parameter name → r.tokenAt? source = none) :
    r.token? names = some token := by
  have hmem : Source.parameter name ∈ sources names :=
    List.mem_flatMap.2 ⟨name, hname, List.mem_pair.2 (.inr rfl)⟩
  obtain ⟨earlier, later, hcut, hfirst⟩ := List.eq_append_cons_of_mem hmem
  exact token?_of_cut hcut (fun other hother => honly other fun e => hfirst (e ▸ hother)) hsome

/-- **Guards are isolated.** Let `g` and `h` be guards that differ in more than the case of letters
and neither of which is, in lower case, the other followed by `access_`. Requests that agree apart
from headers and query parameters named for `g` give the same token under `h`. The guard that is `g`
followed by `access_` shares the name `access_token` with `g`, and a token that is only in the query
parameter of this name is found under both. Under one guard, what stands behind the place that gives
the token does not count. -/
theorem guards_isolated (g h : String) :
    (g.toLower ≠ h.toLower → g.toLower ≠ h.toLower ++ "access_" →
        h.toLower ≠ g.toLower ++ "access_" →
        ∀ r r' : Request, AgreeApart (sources (candidates g)) r r' →
          r.token? (candidates h) = r'.token? (candidates h)) ∧
      (g ++ "access_token" ∈ candidates g ∧ g ++ "access_token" ∈ candidates (g ++ "access_") ∧
        ∀ (r : Request) (token : String),
          r.tokenAt? (.parameter (g ++ "access_token")) = some token →
          (∀ source, source ≠ .parameter (g ++ "access_token") → r.tokenAt? source = none) →
          r.token? (candidates g) = some token ∧
            r.token? (candidates (g ++ "access_")) = some token) ∧
      ∀ (earlier later : List Source) (source : Source),
        sources (candidates g) = earlier ++ source :: later →
        ∀ (r r' : Request) (token : String), (∀ other ∈ earlier, r.tokenAt? other = none) →
          r.tokenAt? source = some token → AgreeApart later r r' →
          r.token? (candidates g) = some token ∧ r'.token? (candidates g) = some token := by
  refine ⟨fun hne hgh hhg r r' agree => ?_, ⟨access_token_mem_candidates g,
    access_token_mem_candidates_access g, fun r token hsome honly => ⟨?_, ?_⟩⟩,
    fun earlier later source hcut r r' token hnone hsome agree => ⟨?_, ?_⟩⟩
  · refine agree.token?_eq fun source hsource other hother => Source.apart_of_toLower_ne ?_
    exact (toLower_ne_of_mem_candidates hne hgh hhg (name_mem_of_mem_sources hother)
      (name_mem_of_mem_sources hsource)).symm
  · exact token?_of_only_parameter (access_token_mem_candidates g) hsome honly
  · exact token?_of_only_parameter (access_token_mem_candidates_access g) hsome honly
  · exact token?_of_cut hcut hnone hsome
  · exact agree.token?_of_cut (pairwise_candidates g) hcut hnone hsome

/-- Without a guard the same token is found after a header of `admin_` and a query parameter are
removed and another header is added. The query parameter `admin_access_token` is found under the guard
`admin_access_` as well. Behind a header that gives the token, a query parameter does not count. -/
theorem tokens_of_admin_and_of_no_guard :
    token? ⟨[⟨"authorization", "Bearer t-1"⟩, ⟨"admin_token", "t-2"⟩], [("admin_token", "t-3")]⟩
        (candidates "") =
      token? ⟨[⟨"admin_authorization", "t-4"⟩, ⟨"authorization", "Bearer t-1"⟩], []⟩
        (candidates "") ∧
      token? ⟨[], [("admin_" ++ "access_token", " t-5 ")]⟩ (candidates ("admin_" ++ "access_")) =
        some "t-5" ∧
      token? ⟨[⟨"authorization", "Bearer t-1"⟩], [("authorization", "t-6")]⟩ (candidates "") =
        some "t-1" := by
  refine ⟨?_, ?_, ?_⟩
  · exact (guards_isolated "admin_" "").1 (by decide +kernel) (by decide +kernel)
      (by decide +kernel) _ _ (by decide +kernel)
  · refine ((guards_isolated "admin_" "").2.1.2.2 _ "t-5" (by decide +kernel) ?_).2
    intro source hne
    cases source with
    | header name =>
      rw [tokenAt?, headerToken?, header?_eq_find?]
      rfl
    | parameter name =>
      have hname : (name == "admin_" ++ "access_token") = false :=
        beq_eq_false_iff_ne.2 fun e => hne (congrArg Source.parameter e)
      rw [tokenAt?, queryToken?, parameter?, List.reverse_singleton, List.lookup_cons, hname]
      rfl
  · exact ((guards_isolated "" "").2.2 [] _ (.header "authorization") rfl
      ⟨[⟨"authorization", "Bearer t-1"⟩], []⟩ _ "t-1"
      (fun _ hother => absurd hother List.not_mem_nil) (by decide +kernel) (by decide +kernel)).2

end Request

end Clearance
