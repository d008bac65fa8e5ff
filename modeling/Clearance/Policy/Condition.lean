import Clearance.Fault
import Clearance.Text.Split

/-!
# Conditions

A policy text has three segments between colons, for departments, roles and scopes. Lenient
parsing (`Condition.parse`) fills in the wildcard for a missing segment and ignores what comes
after the third; strict parsing (`Condition.parseStrict?`) asks for exactly three.
-/

namespace Clearance

/-- The segment that every claim set satisfies. -/
def wildcard : String := "*"

/-- A parsed policy text. -/
structure Condition where
  /-- The policy text as given. -/
  raw : String
  /-- The department segment. -/
  departments : String
  /-- The role segment, before tiers are expanded. -/
  roles : String
  /-- The scope segment. -/
  scopes : String
  deriving DecidableEq

namespace Condition

/-- The segments of a policy text, however many. -/
def segmentsOf (policy : String) : List String := Text.split ':' policy

/-- The segment at a position, the wildcard if there is none. -/
def segmentAt (policy : String) (position : Nat) : String :=
  (segmentsOf policy).getD position wildcard

/-- Parses leniently; every text is a condition. -/
def parse (policy : String) : Condition :=
  { raw := policy
    departments := segmentAt policy 0
    roles := segmentAt policy 1
    scopes := segmentAt policy 2 }

/-- Parses a policy text of exactly three segments. -/
def parseStrict? (policy : String) : Except Fault Condition :=
  let found := (segmentsOf policy).length
  if found = 3 then .ok (parse policy) else .error (.segmentCount found policy)

/-- The condition that everyone meets. -/
def any : Condition := parse "*:*:*"

instance : Inhabited Condition := ⟨any⟩

/-- The three segments in the order in which they are checked. -/
def segments (c : Condition) : List String := [c.departments, c.roles, c.scopes]

/-- The three segments as a policy text. -/
def canonical (c : Condition) : String := Text.join ':' c.segments

instance : ToString Condition := ⟨raw⟩

end Condition

end Clearance
