import Clearance.Fault
import Clearance.Json.Codec

/-!
# Configuration

A deployment decides which claims carry what. `ClaimFields` names the claims with the claim sets
and the role catalog, `AuthConfig` the identity claim and the place of the principal records.
Every name has a default. A configuration comes from a JSON text, in which five names must not
be empty, or from the environment, in which an empty variable counts as unset.
-/

namespace Clearance

open Json.Draft

/-- The version of the library that a deployment configures. -/
def version : String := "0.1.0"

/-- The names of the claims that carry the claim sets and the role catalog. -/
structure ClaimFields where
  /-- The claim with the object that holds the three sets. -/
  userClaim : String
  /-- The array of departments in that object. -/
  departments : String
  /-- The array of roles in that object. -/
  roles : String
  /-- The array of scopes in that object. -/
  scopes : String
  /-- The claim with the role catalog. -/
  hierarchyClaim : String
  deriving DecidableEq

namespace ClaimFields

/-- The conventional names. -/
def standard : ClaimFields :=
  { userClaim := "user"
    departments := "departments"
    roles := "roles"
    scopes := "scopes"
    hierarchyClaim := "roles" }

instance : Inhabited ClaimFields := ⟨standard⟩

/-- How the names are read. -/
def shape : RecordShape ClaimFields where
  name := "ClaimFields"
  fields :=
    [ ⟨"user_claim", fun d f => d.readText.map fun s => { f with userClaim := s }⟩,
      ⟨"departments", fun d f => d.readText.map fun s => { f with departments := s }⟩,
      ⟨"roles", fun d f => d.readText.map fun s => { f with roles := s }⟩,
      ⟨"scopes", fun d f => d.readText.map fun s => { f with scopes := s }⟩,
      ⟨"hierarchy_claim", fun d f => d.readText.map fun s => { f with hierarchyClaim := s }⟩ ]
  initial := standard
  required := []
  leading := 0

instance : Codec ClaimFields where
  toJson f :=
    .object
      [ ("user_claim", .text f.userClaim), ("departments", .text f.departments),
        ("roles", .text f.roles), ("scopes", .text f.scopes),
        ("hierarchy_claim", .text f.hierarchyClaim) ]
  read := readRecord shape

end ClaimFields

/-- The configuration of a deployment. -/
structure AuthConfig where
  /-- The claim with the lookup key of the principal. -/
  identityClaim : String
  /-- The record field that the lookup key is compared with. -/
  storeKey : String
  /-- The model of the principal records. -/
  principalModel : String
  /-- The names of the other claims. -/
  claims : ClaimFields
  /-- The guard in use until another is set. -/
  defaultGuard : Option String
  deriving DecidableEq

namespace AuthConfig

/-- The configuration without any setting. -/
def standard : AuthConfig :=
  { identityClaim := "authId"
    storeKey := "auth_id"
    principalModel := "User"
    claims := .standard
    defaultGuard := none }

instance : Inhabited AuthConfig := ⟨standard⟩

/-! ## Reading and writing -/

/-- How a configuration is read. -/
def shape : RecordShape AuthConfig where
  name := "AuthConfig"
  fields :=
    [ ⟨"identity_claim", fun d c => d.readText.map fun s => { c with identityClaim := s }⟩,
      ⟨"store_key", fun d c => d.readText.map fun s => { c with storeKey := s }⟩,
      ⟨"principal_model", fun d c => d.readText.map fun s => { c with principalModel := s }⟩,
      ⟨"claims", fun d c => (Codec.read d).map fun f => { c with claims := f }⟩,
      ⟨"default_guard", fun d c => d.readOptionalText.map fun g => { c with defaultGuard := g }⟩ ]
  initial := standard
  required := []
  leading := 0

/-- The configuration as it is written; an absent guard is left out. -/
def toJson (c : AuthConfig) : Json :=
  .object
    ([ ("identity_claim", .text c.identityClaim), ("store_key", .text c.storeKey),
        ("principal_model", .text c.principalModel), ("claims", Codec.toJson c.claims) ] ++
      c.defaultGuard.toList.map fun g => ("default_guard", .text g))

instance : Codec AuthConfig where
  toJson := toJson
  read := readRecord shape

/-! ## Validity -/

/-- The settings that must not be empty, in the order in which they are checked. -/
def requiredSettings (c : AuthConfig) : List (String × String) :=
  [ ("identity_claim", c.identityClaim), ("store_key", c.storeKey),
    ("principal_model", c.principalModel), ("claims.user_claim", c.claims.userClaim),
    ("claims.hierarchy_claim", c.claims.hierarchyClaim) ]

/-- The name of the first required setting that is empty. -/
def firstEmpty? (c : AuthConfig) : Option String :=
  (c.requiredSettings.find? (·.2 = "")).map Prod.fst

/-- Refuses a configuration in which a required setting is empty. -/
def validate (c : AuthConfig) : Except Fault Unit :=
  match c.firstEmpty? with
  | some name => .error (.emptySetting name)
  | none => .ok ()

/-- The valid configuration that a JSON text describes. -/
def ofText (s : String) : Except Fault AuthConfig :=
  match (Codec.decode s : Except Refusal AuthConfig) with
  | .error refusal => .error (.serialization refusal)
  | .ok c => c.validate.map fun _ => c

/-! ## The environment -/

/-- The bytes of each environment variable that is set. -/
abbrev Environment := String → Option ByteArray

/-- The text of a variable, unless it is unset, empty or not UTF-8. -/
def Environment.setting? (env : Environment) (name : String) : Option String :=
  ((env name).bind String.fromUTF8?).filter (· ≠ "")

/-- The configuration that the environment describes. -/
def ofEnvironment (env : Environment) : AuthConfig :=
  { identityClaim := (env.setting? "NAUTH_IDENTITY_CLAIM").getD standard.identityClaim
    storeKey := (env.setting? "NAUTH_KEY").getD standard.storeKey
    principalModel := (env.setting? "NAUTH_USER_MODEL").getD standard.principalModel
    claims := standard.claims
    defaultGuard := env.setting? "NAUTH_GUARD" }

end AuthConfig

end Clearance
