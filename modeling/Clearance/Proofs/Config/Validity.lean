import Clearance.Config
import Mathlib.Data.List.Basic

/-!
# Valid configurations

A configuration is valid if none of five settings is empty, and is refused for the first of them
that is (`validate_eq_error_iff`). Both ways to load a configuration give valid ones, each by a rule
of its own. A variable of the environment counts only if it holds a text that is not empty, and what
is not set has a default that is not empty either (`validate_ofEnvironment`). A text is read as a
whole and with its defaults before anything is validated (`ofText_of_decode`), so that an empty
setting in it does not fall back but is refused.
-/

namespace Clearance.AuthConfig

/-! ## Validation -/

/-- The named setting is empty, and no setting listed before it is. -/
def FirstEmpty (name : String) (settings : List (String × String)) : Prop :=
  ∃ before after, settings = before ++ (name, "") :: after ∧ ∀ s ∈ before, s.2 ≠ ""

section
variable {c : AuthConfig} {name : String} {fault : Fault}

theorem firstEmpty?_eq_some_iff :
    c.firstEmpty? = some name ↔ FirstEmpty name c.requiredSettings := by
  rw [firstEmpty?, Option.map_eq_some_iff]
  constructor
  · rintro ⟨⟨_, value⟩, hfind, rfl⟩
    obtain ⟨hempty, before, after, hcut, hbefore⟩ := List.find?_eq_some_iff_append.1 hfind
    obtain rfl : value = "" := by simpa using hempty
    exact ⟨before, after, hcut, fun s hs => by simpa using hbefore s hs⟩
  · rintro ⟨before, after, hcut, hbefore⟩
    refine ⟨(name, ""), List.find?_eq_some_iff_append.2 ⟨by simp, before, after, hcut, ?_⟩, rfl⟩
    intro s hs
    simpa using hbefore s hs

theorem firstEmpty?_eq_none_iff :
    c.firstEmpty? = none ↔ ∀ s ∈ c.requiredSettings, s.2 ≠ "" := by
  simp [firstEmpty?]

/-- A configuration is valid if no required setting is empty. -/
theorem validate_eq_ok_iff : c.validate = .ok () ↔ ∀ s ∈ c.requiredSettings, s.2 ≠ "" := by
  rw [← firstEmpty?_eq_none_iff, validate]
  cases c.firstEmpty? <;> simp

/-- A configuration is refused for the first required setting that is empty. -/
theorem validate_eq_error_iff : c.validate = .error fault ↔
    ∃ name, FirstEmpty name c.requiredSettings ∧ fault = .emptySetting name := by
  simp only [← firstEmpty?_eq_some_iff]
  rw [validate]
  cases c.firstEmpty? with
  | none => simp
  | some name => simp [eq_comm]

/-- A configuration is refused if one of the five required settings is empty. -/
theorem exists_validate_eq_error_iff : (∃ fault, c.validate = .error fault) ↔
    c.identityClaim = "" ∨ c.storeKey = "" ∨ c.principalModel = "" ∨ c.claims.userClaim = "" ∨
      c.claims.hierarchyClaim = "" := by
  have hrefused : (∃ fault, c.validate = .error fault) ↔ ¬ c.validate = .ok () := by
    cases c.validate <;> simp
  rw [hrefused, validate_eq_ok_iff]
  simp only [requiredSettings, List.forall_mem_cons, List.not_mem_nil, false_implies,
    implies_true, and_true, not_and_or, not_not, ne_eq]

/-! ## Texts -/

variable {text : String}

/-- What a text describes is loaded as its validation ends. -/
theorem ofText_of_decode (h : Codec.decode text = .ok c) :
    ofText text = c.validate.map fun _ => c := by
  rw [ofText, h]

/-- A text gives the configuration that it describes if that is valid. -/
theorem ofText_eq_ok_iff :
    ofText text = .ok c ↔ Codec.decode text = .ok c ∧ c.validate = .ok () := by
  constructor
  · intro h
    cases hdecode : (Codec.decode text : Except Refusal AuthConfig) with
    | error refusal => simp [ofText, hdecode] at h
    | ok d =>
      rw [ofText_of_decode hdecode] at h
      cases hvalid : d.validate with
      | error fault => simp [hvalid, Except.map] at h
      | ok _ =>
        obtain rfl : d = c := by simpa [hvalid, Except.map] using h
        exact ⟨rfl, hvalid⟩
  · rintro ⟨hdecode, hvalid⟩
    rw [ofText_of_decode hdecode, hvalid]
    rfl

/-- A text is refused as the validation of what it describes refuses it. -/
theorem ofText_eq_error_iff (h : Codec.decode text = .ok c) :
    ofText text = .error fault ↔ c.validate = .error fault := by
  rw [ofText_of_decode h]
  cases c.validate <;> simp [Except.map]

end

/-! ## The environment -/

section
variable {env : Environment} {name : String}

/-- A variable gives a setting if it holds the bytes of a text that is not empty. -/
theorem Environment.setting?_eq_some_iff {value : String} :
    env.setting? name = some value ↔ env name = some value.toUTF8 ∧ value ≠ "" := by
  have hbytes : ∀ bytes, String.fromUTF8? bytes = some value ↔ bytes = value.toUTF8 := by
    intro bytes
    rw [String.fromUTF8?, Option.dite_none_right_eq_some]
    constructor
    · rintro ⟨h, hvalue⟩
      rw [← Option.some.inj hvalue]
      rfl
    · rintro rfl
      exact ⟨value.isValidUTF8, rfl⟩
  rw [setting?, Option.filter_eq_some_iff, Option.bind_eq_some_iff]
  simp only [hbytes, exists_eq_right, decide_eq_true_eq]

/-- No variable gives an empty setting. -/
theorem Environment.setting?_ne_empty : env.setting? name ≠ some "" := fun h =>
  (setting?_eq_some_iff.1 h).2 rfl

/-- A setting with a default that is not empty is never empty. -/
theorem Environment.getD_setting?_ne_empty {default : String} (h : default ≠ "") :
    (env.setting? name).getD default ≠ "" := by
  cases hset : env.setting? name with
  | none => exact h
  | some value =>
    rintro rfl
    exact setting?_ne_empty hset

/-- The environment gives a valid configuration, whatever its variables hold. -/
theorem validate_ofEnvironment (env : Environment) : (ofEnvironment env).validate = .ok () := by
  rw [validate_eq_ok_iff]
  simp only [requiredSettings, List.forall_mem_cons]
  refine ⟨?_, ?_, ?_, ?_, ?_, fun s hs => absurd hs List.not_mem_nil⟩
  · exact Environment.getD_setting?_ne_empty (by decide)
  · exact Environment.getD_setting?_ne_empty (by decide)
  · exact Environment.getD_setting?_ne_empty (by decide)
  · show ClaimFields.standard.userClaim ≠ ""
    decide
  · show ClaimFields.standard.hierarchyClaim ≠ ""
    decide

-- A variable that is empty and one that is not UTF-8 leave the default in place.
example : ofEnvironment (fun name => if name = "NAUTH_KEY" then some ⟨#[0xff]⟩ else some ⟨#[]⟩) =
    standard := by decide +kernel

end

/-! ## Loading -/

/-- **Loaded configurations are valid, and others are refused by name.** Every environment gives a
valid configuration, whose guard is not empty. A text gives a configuration exactly if it describes
one that is valid. A configuration is refused exactly if one of its five required settings is empty,
and for the first of them in their order; a text that describes it is refused for the same. -/
theorem loaded_valid_or_first_empty_named :
    (∀ env : Environment, (ofEnvironment env).validate = .ok () ∧
        (ofEnvironment env).defaultGuard ≠ some "") ∧
      (∀ text c, ofText text = .ok c ↔ Codec.decode text = .ok c ∧ c.validate = .ok ()) ∧
      ∀ c : AuthConfig,
        ((∃ fault, c.validate = .error fault) ↔
          c.identityClaim = "" ∨ c.storeKey = "" ∨ c.principalModel = "" ∨
            c.claims.userClaim = "" ∨ c.claims.hierarchyClaim = "") ∧
        (∀ fault, c.validate = .error fault ↔ ∃ name,
          FirstEmpty name
            [ ("identity_claim", c.identityClaim), ("store_key", c.storeKey),
              ("principal_model", c.principalModel), ("claims.user_claim", c.claims.userClaim),
              ("claims.hierarchy_claim", c.claims.hierarchyClaim) ] ∧
          fault = .config (name ++ " cannot be empty")) ∧
        ∀ text, Codec.decode text = .ok c →
          ∀ fault, ofText text = .error fault ↔ c.validate = .error fault := by
  refine ⟨fun env => ⟨validate_ofEnvironment env, Environment.setting?_ne_empty⟩,
    fun text c => ofText_eq_ok_iff, fun c => ⟨exists_validate_eq_error_iff, fun fault => ?_,
    fun text h fault => ofText_eq_error_iff h⟩⟩
  exact validate_eq_error_iff

/-- The nested object gives two of its five names, both empty, and is refused for the one that is
checked first; the settings that are not given count with their defaults. -/
theorem refused_for_user_claim :
    let text := "\x7b\"store_key\": \"uid\", \"claims\":" ++
      "\x7b\"hierarchy_claim\": \"\", \"user_claim\": \"\"\x7d\x7d"
    let c : AuthConfig := { standard with
      storeKey := "uid"
      claims := { ClaimFields.standard with userClaim := "", hierarchyClaim := "" } }
    Codec.decode text = .ok c ∧
      c.validate = .error (.config "claims.user_claim cannot be empty") ∧
      ofText text = .error (.config "claims.user_claim cannot be empty") := by
  intro text c
  have hdecode : Codec.decode text = .ok c := by decide +kernel
  obtain ⟨-, hfirst, htext⟩ := loaded_valid_or_first_empty_named.2.2 c
  have hrefused : c.validate = .error (.config "claims.user_claim cannot be empty") :=
    (hfirst _).2 ⟨"claims.user_claim",
      ⟨[("identity_claim", "authId"), ("store_key", "uid"), ("principal_model", "User")],
        [("claims.hierarchy_claim", "")], rfl, by decide⟩, by decide⟩
  exact ⟨hdecode, hrefused, (htext text hdecode _).2 hrefused⟩

end Clearance.AuthConfig
