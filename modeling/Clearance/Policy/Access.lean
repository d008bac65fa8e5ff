import Clearance.Json.Codec

/-!
# Access decisions

A policy is met, or violated in one dimension. `Access` is the decision about a request, which
may also carry no credential at all. It is written as an object with a status and, for a denial,
a reason; it is read back from an object with the two in either order or from an array of the two.
-/

namespace Clearance

open Json

/-- The dimension in which a policy is not met. -/
inductive Violation where
  | notInDepartments
  | notInRoles
  | notInScopes
  deriving DecidableEq

namespace Violation

/-- The tag of the dimension. -/
def tag : Violation → String
  | notInDepartments => "not_in_departments"
  | notInRoles => "not_in_roles"
  | notInScopes => "not_in_scopes"

/-- The violations by tag, in the order of the checks. -/
def variants : List (String × Violation) :=
  [notInDepartments, notInRoles, notInScopes].map fun v => (v.tag, v)

instance : Codec Violation where
  toJson v := .text v.tag
  read d := d.readVariant variants

end Violation

/-- The decision about a request. -/
inductive Access where
  /-- The policy is met. -/
  | granted
  /-- The request carries no credential. -/
  | unauthenticated
  /-- The policy is violated. -/
  | denied (reason : Violation)
  deriving DecidableEq

namespace Access

/-- The policy is met. -/
def isGranted : Access → Bool
  | granted => true
  | _ => false

/-- The violated dimension of a denial. -/
def reason? : Access → Option Violation
  | denied reason => some reason
  | _ => none

/-- The decision that an evaluation leads to. -/
def ofVerdict : Except Violation Unit → Access
  | .ok _ => granted
  | .error reason => denied reason

/-! ## Writing and reading -/

/-- How a request fared, without the reason of a denial. -/
inductive Status where
  | granted
  | unauthenticated
  | denied
  deriving DecidableEq

/-- The name of the status. -/
def Status.name : Status → String
  | granted => "granted"
  | unauthenticated => "unauthenticated"
  | denied => "denied"

/-- The statuses by name. -/
def statuses : List (String × Status) :=
  [Status.granted, .unauthenticated, .denied].map fun s => (s.name, s)

/-- How the request fared. -/
def status : Access → Status
  | granted => .granted
  | unauthenticated => .unauthenticated
  | denied _ => .denied

/-- The decision as it is written. -/
def toJson (a : Access) : Json :=
  .object
    (("status", .text a.status.name) ::
      a.reason?.toList.map fun reason => ("reason", Codec.toJson reason))

/-- What an access decision is called in messages. -/
def description : String := "adjacently tagged enum Access"

/-- The reason beside a status: null for one that has none. -/
def readReason (readViolation : Draft → Except Refusal Violation) (status : Status) (d : Draft) :
    Except Refusal Access :=
  let unit (a : Access) (name : String) :=
    match d with
    | .null => .ok a
    | d => d.refuse ("unit variant Access::" ++ name)
  match status with
  | .granted => unit granted "Granted"
  | .unauthenticated => unit unauthenticated "Unauthenticated"
  | .denied => (readViolation d).map denied

/-- The decision of a status without a reason. -/
def ofStatus : Status → Except Refusal Access
  | .granted => .ok granted
  | .unauthenticated => .ok unauthenticated
  | .denied => .error (.mismatch (.missingField "reason"))

/-- The violation in a reason that came before its status and has been kept. -/
def readKeptViolation : Draft → Except Refusal Violation
  | .text (some tag) => Draft.pickVariant Violation.variants tag
  | .object [(some tag, d)] => do
    let v ← Draft.pickVariant Violation.variants tag
    match d with
    | .object [] => return v
    | d => d.readUnit.map fun _ => v
  | .object _ => .error (.mismatch .notOneMember)
  | d => d.refuse "string or map"

/-- The next member that is a status or a reason, and the members after it. The members before it
must be intact. -/
def nextPart :
    List (Option String × Draft) →
      Except Refusal (Option (String × Draft × List (Option String × Draft)))
  | [] => .ok none
  | (some name, d) :: rest =>
    if name = "status" ∨ name = "reason" then .ok (some (name, d, rest))
    else if d.intact then nextPart rest
    else .error .notJson
  | (none, _) :: _ => .error .notJson

/-- Neither part comes a second time. -/
def endParts (rest : List (Option String × Draft)) : Except Refusal Unit := do
  match ← nextPart rest with
  | none => return ()
  | some (name, _) => throw (.mismatch (.duplicateField name))

/-- Reads the members of an object. A reason that comes before its status is kept until the
status is known. -/
def readParts (members : List (Option String × Draft)) : Except Refusal Access := do
  match ← nextPart members with
  | none => throw (.mismatch (.missingField "status"))
  | some ("status", d, rest) =>
    let status ← d.readVariant statuses
    match ← nextPart rest with
    | none => ofStatus status
    | some ("status", _) => throw (.mismatch (.duplicateField "status"))
    | some (_, reason, rest) =>
      let access ← readReason Codec.read status reason
      endParts rest
      return access
  | some (_, reason, rest) =>
    if (reason.value? (Draft.maxNesting - 1)).isNone then throw .notJson
    match ← nextPart rest with
    | none => throw (.mismatch (.missingField "status"))
    | some ("status", d, rest) =>
      let status ← d.readVariant statuses
      let access ← readReason readKeptViolation status reason
      endParts rest
      return access
    | some (name, _) => throw (.mismatch (.duplicateField name))

/-- The status at the start of an array. -/
def readStatus : Draft → Except Refusal Status
  | .text (some name) => Draft.pickVariant statuses name
  | d => d.refuse "variant identifier"

/-- Reads the elements of an array: the status, the reason and nothing else. -/
def readItems : List Draft → Except Refusal Access
  | [] => .error (.mismatch (.wrongLength 0 description))
  | d :: rest => do
    let status ← readStatus d
    match rest with
    | [] => throw (.mismatch (.wrongLength 1 description))
    | reason :: rest =>
      let access ← readReason Codec.read status reason
      if rest.isEmpty then return access else throw .notJson

/-- Reads a decision. -/
def read : Draft → Except Refusal Access
  | .object members => readParts members
  | .array items => readItems items
  | d => d.refuse description

instance : Codec Access := ⟨toJson, read⟩

end Access

end Clearance
