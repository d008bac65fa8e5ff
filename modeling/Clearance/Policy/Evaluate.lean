import Clearance.Identity.ClaimSet
import Clearance.Policy.Access
import Clearance.Policy.Segment

/-!
# Evaluating a policy

A condition is checked dimension by dimension: departments, then roles with their tiers expanded,
then scopes. The first dimension that is not satisfied is the violation.
-/

namespace Clearance

/-- Asks that a claim set satisfies a segment. -/
def require (claims : NameSet) (segment : String) (otherwise : Violation) :
    Except Violation Unit :=
  if satisfies claims segment then .ok () else .error otherwise

/-- Checks a condition against claim sets under a hierarchy. -/
def Condition.evaluate (c : Condition) (claims : ClaimSet) (hierarchy : Hierarchy) :
    Except Violation Unit := do
  require claims.departments c.departments .notInDepartments
  require claims.roles (hierarchy.expand c.roles) .notInRoles
  require claims.scopes c.scopes .notInScopes

/-- Checks a policy text, parsed leniently. -/
def evaluate (policy : String) (claims : ClaimSet) (hierarchy : Hierarchy) :
    Except Violation Unit :=
  (Condition.parse policy).evaluate claims hierarchy

end Clearance
