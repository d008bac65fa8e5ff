import Clearance.NameSet
import Clearance.Policy.Condition

/-!
# Segments

A segment says which names a claim set must hold: any at all, one, all of a list or one of a
list. Lists are written with `&` or `|` between their tokens. When a segment has both, the
delimiter that occurs more often cuts it, and a tie leaves it whole.
-/

namespace Clearance

/-- What a segment asks of a claim set. -/
inductive Requirement where
  /-- Nothing. -/
  | wildcard
  /-- The one token. -/
  | exact (token : String)
  /-- Every token. -/
  | all (tokens : List String)
  /-- At least one token. -/
  | any (tokens : List String)
  deriving DecidableEq

namespace Requirement

/-- What the segment asks for. -/
def ofSegment (segment : String) : Requirement :=
  if segment = "" ∨ segment = Clearance.wildcard then wildcard
  else
    let conjuncts := Text.split '&' segment
    let alternatives := Text.split '|' segment
    if conjuncts.length = alternatives.length then exact segment
    else if alternatives.length < conjuncts.length then all conjuncts
    else any alternatives

/-- The claim set holds what is asked for. -/
def admits (r : Requirement) (claims : NameSet) : Bool :=
  match r with
  | wildcard => true
  | exact token => token ∈ claims
  | all tokens => tokens.all (· ∈ claims)
  | any tokens => tokens.any (· ∈ claims)

section
variable {claims : NameSet} {tokens : List String}

theorem admits_exact_iff {token : String} :
    (exact token).admits claims = true ↔ token ∈ claims :=
  decide_eq_true_iff

theorem admits_all_iff :
    (all tokens).admits claims = true ↔ ∀ token ∈ tokens, token ∈ claims := by
  simp [admits]

theorem admits_any_iff :
    (any tokens).admits claims = true ↔ ∃ token ∈ tokens, token ∈ claims := by
  simp [admits]

end

end Requirement

/-- The claim set satisfies the segment. -/
def satisfies (claims : NameSet) (segment : String) : Bool :=
  (Requirement.ofSegment segment).admits claims

end Clearance
