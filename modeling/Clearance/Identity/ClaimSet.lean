import Clearance.Config
import Clearance.Identity.Payload
import Clearance.NameSet

/-!
# Claim sets

The claim sets of a payload are the departments, roles and scopes in arrays of its user claim,
read as sets of texts. An element that is no scalar, and an array that is none, hold no names.
-/

namespace Clearance

open Json.Draft

/-- Who a payload speaks for and what they belong to. -/
structure ClaimSet where
  /-- The identity key, if the payload has one. -/
  authId : Option String
  /-- The departments. -/
  departments : NameSet
  /-- The roles. -/
  roles : NameSet
  /-- The scopes. -/
  scopes : NameSet
  deriving DecidableEq

namespace ClaimSet

/-- No identity and no names. -/
def empty : ClaimSet := ⟨none, ∅, ∅, ∅⟩

instance : Inhabited ClaimSet := ⟨empty⟩

/-- The names in an array member of the user claim. -/
def namesIn (user : Option Json) (field : String) : NameSet :=
  let items := user.bind (·.member? field) |>.bind Json.items? |>.getD []
  .ofList (items.filterMap Json.scalarText)

/-- The claim sets of a payload. -/
def ofPayload (p : Payload) (identityClaim : String) (fields : ClaimFields) : ClaimSet :=
  let user := p.claim? fields.userClaim
  { authId := p.key? identityClaim
    departments := namesIn user fields.departments
    roles := namesIn user fields.roles
    scopes := namesIn user fields.scopes }

/-- How claim sets are read: by name all may be absent, in order the identity may not. -/
def shape : RecordShape ClaimSet where
  name := "ClaimSet"
  fields :=
    [ ⟨"auth_id", fun d c => d.readOptionalText.map fun k => { c with authId := k }⟩,
      ⟨"departments", fun d c => d.readTexts.map fun l => { c with departments := .ofList l }⟩,
      ⟨"roles", fun d c => d.readTexts.map fun l => { c with roles := .ofList l }⟩,
      ⟨"scopes", fun d c => d.readTexts.map fun l => { c with scopes := .ofList l }⟩ ]
  initial := empty
  required := []
  leading := 1

/-- The claim sets as they are written, the names of each in increasing order. -/
def toJson (c : ClaimSet) : Json :=
  let names (s : NameSet) : Json := .array (s.toList.map .text)
  .object
    ((c.authId.toList.map fun k => ("auth_id", .text k)) ++
      [ ("departments", names c.departments), ("roles", names c.roles),
        ("scopes", names c.scopes) ])

instance : Codec ClaimSet where
  toJson := toJson
  read := readRecord shape

end ClaimSet

end Clearance
