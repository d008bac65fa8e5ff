import Clearance.Json.Value
import Clearance.Json.Token

/-!
# Compact JSON

`Json.tokens` lists the tokens of a value in its one compact form: members and items in their
order, with a comma between neighbours and no white space. `Json.render` writes them.
-/

namespace Clearance.Json

mutual

/-- The tokens of a value. -/
def tokens : Json → List Token
  | .null => [.null]
  | .bool b => [.bool b]
  | .number n => [.number n.literal]
  | .text s => [.text (some s)]
  | .array [] => [.openArray, .closeArray]
  | .array (v :: rest) => .openArray :: (v.tokens ++ itemTokens rest)
  | .object [] => [.openObject, .closeObject]
  | .object ((name, v) :: rest) =>
    .openObject :: .text (some name) :: .colon :: (v.tokens ++ memberTokens rest)

/-- The tokens of the items after the first, and of the bracket that closes the array. -/
def itemTokens : List Json → List Token
  | [] => [.closeArray]
  | v :: rest => .comma :: (v.tokens ++ itemTokens rest)

/-- The tokens of the members after the first, and of the bracket that closes the object. -/
def memberTokens : List (String × Json) → List Token
  | [] => [.closeObject]
  | (name, v) :: rest => .comma :: .text (some name) :: .colon :: (v.tokens ++ memberTokens rest)

end

/-- The compact text of a value. -/
def render (v : Json) : String := String.ofList (v.tokens.flatMap Token.chars)

end Clearance.Json
