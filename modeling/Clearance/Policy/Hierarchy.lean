import Clearance.Text.Replace

/-!
# Role hierarchies

A hierarchy declares role names in an order. In a role segment `R+` stands for `R` or a role
declared before it, nearest first, and `R-` for `R` or a role declared after it. Expansion is
textual: it replaces every marked role name by the names of its tier with `|` between them. All
`+` are replaced before any `-`, and each pass goes through the roles in the order in which its
tiers grow, so that `+` goes backwards through the declared order and `-` forwards.
-/

namespace Clearance

/-- Role names in declared order. -/
structure Hierarchy where
  /-- The declared names. -/
  roles : List String
  deriving DecidableEq

namespace Hierarchy

instance : Inhabited Hierarchy := ⟨⟨[]⟩⟩

/-- No role is declared. -/
def isEmpty (h : Hierarchy) : Bool := h.roles.isEmpty

/-- The alternatives for a marked role: the names from its first place in the order to the end. -/
def tier (order : List (List Char)) (role : List Char) : List Char :=
  ['|'].intercalate (order.dropWhile (· != role))

/-- Replaces every role that carries the mark, role by role in the given order. -/
def expandMark (mark : Char) (order : List (List Char)) (segment : List Char) : List Char :=
  order.foldl (fun s role => Text.replaceMarked role mark (tier order role) s) segment

/-- Expands both marks. -/
def expandChars (roles : List (List Char)) (segment : List Char) : List Char :=
  expandMark '-' roles (expandMark '+' roles.reverse segment)

/-- The segment with each marked role replaced by its tier. -/
def expand (h : Hierarchy) (segment : String) : String :=
  String.ofList (expandChars (h.roles.map String.toList) segment.toList)

theorem toList_expand (h : Hierarchy) (segment : String) :
    (h.expand segment).toList = expandChars (h.roles.map String.toList) segment.toList :=
  String.toList_ofList

end Hierarchy

end Clearance
