import Clearance.Json.Codec
import Clearance.Sorted

/-!
# Principals

A principal is the record behind a credential: its model, its attributes in the order in which
they were set, and the relations that were loaded with it, in the order of their names.
-/

namespace Clearance

open Json.Draft

/-! ## Relations -/

/-- Named values in the order of their names. -/
structure Relations where
  /-- The names and values. -/
  entries : List (String × Json)
  /-- The names increase. -/
  increasing : Increasing Prod.fst entries
  deriving DecidableEq

namespace Relations

/-- No relation. -/
def empty : Relations := ⟨[], increasing_nil⟩

instance : Inhabited Relations := ⟨empty⟩

/-- Sets a relation. -/
def insert (r : Relations) (name : String) (value : Json) : Relations :=
  ⟨insertByKey Prod.fst (name, value) r.entries, r.increasing.insertByKey⟩

/-- The relations of the given pairs, of which a later one replaces an earlier one. -/
def ofPairs (pairs : List (String × Json)) : Relations :=
  pairs.foldl (fun r p => r.insert p.1 p.2) empty

/-- The relation of a name. -/
def find? (r : Relations) (name : String) : Option Json := r.entries.lookup name

/-- The relations whose names are asked for. -/
def only (r : Relations) (names : List String) : Relations :=
  ⟨r.entries.filter fun e => e.1 ∈ names, r.increasing.filter _⟩

/-- Relations with the same entries are equal. -/
theorem ext {r s : Relations} (same : ∀ e, e ∈ r.entries ↔ e ∈ s.entries) : r = s := by
  obtain ⟨l, hl⟩ := r
  obtain ⟨m, hm⟩ := s
  obtain rfl : l = m := hl.ext hm same
  rfl

theorem mem_only {r : Relations} {names : List String} {e : String × Json} :
    e ∈ (r.only names).entries ↔ e ∈ r.entries ∧ e.1 ∈ names := by
  simp [only]

end Relations

/-! ## Records -/

/-- The record behind a credential. -/
structure Principal where
  /-- The model that the record belongs to. -/
  model : String
  /-- The attributes in the order in which they were set. -/
  attributes : List (String × Json)
  /-- The relations that were loaded. -/
  relations : Relations
  deriving DecidableEq

namespace Principal

/-- The record of a model without attributes and relations. -/
def ofModel (model : String) : Principal := ⟨model, [], .empty⟩

instance : Inhabited Principal := ⟨ofModel ""⟩

/-- Sets an attribute. -/
def withAttribute (p : Principal) (name : String) (value : Json) : Principal :=
  { p with attributes := Json.putMember name value p.attributes }

/-- Sets a relation. -/
def withRelation (p : Principal) (name : String) (value : Json) : Principal :=
  { p with relations := p.relations.insert name value }

/-- An attribute as a lookup key. -/
def attributeKey? (p : Principal) (field : String) : Option String :=
  (p.attributes.lookup field).bind Json.scalarText

/-- How a record is read. -/
def shape : RecordShape Principal where
  name := "Principal"
  fields :=
    [ ⟨"model", fun d p => d.readText.map fun s => { p with model := s }⟩,
      ⟨"attributes", fun d p => (d.readMembers 1).map fun m => { p with attributes := m }⟩,
      ⟨"relations", fun d p =>
        (d.readMembers 1).map fun m => { p with relations := .ofPairs m }⟩ ]
  initial := ofModel ""
  required := ["model"]
  leading := 1

instance : Codec Principal where
  toJson p :=
    .object
      [ ("model", .text p.model), ("attributes", .object p.attributes),
        ("relations", .object p.relations.entries) ]
  read := readRecord shape

end Principal

end Clearance
