import Clearance.Session.Collaborators

/-!
# Principal records in memory

`Records` keeps principal records in the order of their insertion. A lookup gives the first that
fits, with the relations that were asked for, and counts itself.
-/

namespace Clearance

/-- Principal records and the number of lookups. -/
structure Records where
  /-- The records, the earliest first. -/
  principals : List Principal
  /-- How many lookups have been served. The number has no bound and stands for a counter of one
  machine word, which would start again at zero after as many lookups as a word has values. -/
  lookups : Nat
  deriving DecidableEq

namespace Records

/-- No record. -/
def empty : Records := ⟨[], 0⟩

instance : Inhabited Records := ⟨empty⟩

/-- Adds a record. -/
def insert (r : Records) (p : Principal) : Records := { r with principals := r.principals ++ [p] }

/-- The record is of the wanted model and has the wanted key in the field. -/
def fits (wanted : Lookup) (p : Principal) : Bool :=
  p.model == wanted.model && p.attributeKey? wanted.field == some wanted.value

/-- The record with no other relations than those asked for. -/
def project (relations : List String) (p : Principal) : Principal :=
  { p with relations := p.relations.only relations }

/-- Serves a lookup. -/
def find (r : Records) (wanted : Lookup) : Option Principal × Records :=
  ((r.principals.find? (fits wanted)).map (project wanted.relations),
    { r with lookups := r.lookups + 1 })

end Records

end Clearance
