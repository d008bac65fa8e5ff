import Clearance.Json.Draft
import Clearance.Json.Refusal

/-!
# Reading typed values

A type with a `Codec` is written as a JSON value and read back from a draft. Reading goes from
left to right and stops at the first fault. `decode` reads a whole text and `encode` writes the
compact one.

Records are read by a `RecordShape`. An object gives the fields by name, in any order and with
other members among them; an array gives them in their declared order and nothing after them. A
field that is not given keeps what it has in the initial record.
-/

namespace Clearance

open Json

/-- A type that is written as JSON and read back. -/
class Codec (α : Type) where
  /-- The value as it is written. -/
  toJson : α → Json
  /-- What a draft describes. -/
  read : Draft → Except Refusal α

namespace Json.Draft

variable {α : Type}

/-! ## Scalars and containers -/

/-- What a draft is called where it is not expected; a scalar is read in full for that. -/
def found : Draft → Except Refusal Found
  | null => .ok .null
  | bool b => .ok (.bool b)
  | number (some n) => .ok (.number n)
  | number none => .error .notJson
  | text (some s) => .ok (.text s)
  | text none => .error .notJson
  | array _ => .ok .sequence
  | object _ => .ok .map
  | broken => .error .notJson

/-- Refuses a draft that is not of the expected type. -/
def refuse (d : Draft) (expected : String) : Except Refusal α :=
  match d.found with
  | .ok found => .error (.mismatch (.wrongType found expected))
  | .error r => .error r

/-- Null. -/
def readUnit : Draft → Except Refusal Unit
  | null => .ok ()
  | d => d.refuse "unit"

/-- A text. -/
def readText : Draft → Except Refusal String
  | text (some s) => .ok s
  | d => d.refuse "a string"

/-- A text, or null for none. -/
def readOptionalText : Draft → Except Refusal (Option String)
  | null => .ok none
  | d => d.readText.map some

/-- An array of texts. -/
def readTexts : Draft → Except Refusal (List String)
  | array items => items.mapM readText
  | d => d.refuse "a sequence"

/-- How many containers may be nested in one another around and in a value that is kept. -/
def maxNesting : Nat := 127

/-- The members, whose values are kept, of an object that stands in `outer` containers. -/
def readMembers (outer : Nat) : Draft → Except Refusal (List (String × Json))
  | object members =>
    match (object members).value? (maxNesting - outer) with
    | some (.object kept) => .ok kept
    | _ => .error .notJson
  | d => d.refuse "a map"

/-! ## Variants -/

/-- The variant of a name. -/
def pickVariant (variants : List (String × α)) (name : String) : Except Refusal α :=
  match variants.lookup name with
  | some a => .ok a
  | none => .error (.mismatch (.unknownVariant name (variants.map Prod.fst)))

/-- A variant without contents: its name, or an object with this name and null. What starts neither
way counts as no JSON. -/
def readVariant (variants : List (String × α)) : Draft → Except Refusal α
  | text (some name) => pickVariant variants name
  | object ((some name, d) :: rest) => do
    let a ← pickVariant variants name
    d.readUnit
    if rest.isEmpty then return a else throw .notJson
  | _ => .error .notJson

/-! ## Records -/

/-- A field of a record: its name and how a draft sets it. -/
structure Field (α : Type) where
  /-- The name of the member that gives the field. -/
  name : String
  /-- Sets the field. -/
  set : Draft → α → Except Refusal α

/-- A record type as it is read. -/
structure RecordShape (α : Type) where
  /-- The name of the type in messages. -/
  name : String
  /-- The fields in declared order. -/
  fields : List (Field α)
  /-- The record before any field is read. -/
  initial : α
  /-- The fields that an object must have. -/
  required : List String
  /-- How many elements an array must have. -/
  leading : Nat

/-- Reads the members of an object: known fields once each, the others only for being intact.
Also lists the fields that were given. -/
def readNamed (fields : List (Field α)) :
    List (Option String × Draft) → List String → α → Except Refusal (List String × α)
  | [], given, a => .ok (given, a)
  | (some name, d) :: rest, given, a =>
    match fields.find? (·.name == name) with
    | none => if d.intact then readNamed fields rest given a else .error .notJson
    | some field =>
      if name ∈ given then .error (.mismatch (.duplicateField name))
      else
        match field.set d a with
        | .ok a => readNamed fields rest (name :: given) a
        | .error r => .error r
  | (none, _) :: _, _, _ => .error .notJson

/-- Reads the elements of an array into the fields in their order, with the elements left over. -/
def readInOrder : List (Field α) → List Draft → α → Except Refusal (α × List Draft)
  | field :: fields, d :: rest, a =>
    match field.set d a with
    | .ok a => readInOrder fields rest a
    | .error r => .error r
  | _, rest, a => .ok (a, rest)

/-- Reads a record. -/
def readRecord (shape : RecordShape α) : Draft → Except Refusal α
  | object members => do
    let (given, a) ← readNamed shape.fields members [] shape.initial
    match shape.required.find? (· ∉ given) with
    | some name => throw (.mismatch (.missingField name))
    | none => return a
  | array items => do
    let (a, rest) ← readInOrder shape.fields items shape.initial
    if items.length < shape.leading then
      throw (.mismatch (.wrongLength items.length
        ("struct " ++ shape.name ++ " with " ++ toString shape.fields.length ++ " elements")))
    else if rest.isEmpty then return a
    else throw .notJson
  | d => d.refuse ("struct " ++ shape.name)

end Json.Draft

/-! ## Whole texts -/

namespace Codec

variable {α : Type} [Codec α]

/-- The compact text. -/
def encode (a : α) : String := (toJson a).render

/-- What a whole text describes. -/
def decode (s : String) : Except Refusal α := do
  let document := Json.Draft.ofText s
  let a ← read document.root
  if document.clean then return a else throw .notJson

end Codec

end Clearance
